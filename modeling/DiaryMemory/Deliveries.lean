import DiaryMemory.Alone
import DiaryMemory.Indexing
import DiaryMemory.Replay

/-!
# Deliveries of one message state

Any number of deliveries of one message state are handled at the same time, their calls in any
order. The key of the message state decides among them : the first whose source row is stored
handles the message, every other is given that row and only reads (`phases`).

So the delivery that stored the row ends as it would alone, in an environment that answers its
calls as they were answered among the others (`deliveries_run`); the others return what the
rows they read rebuild, or raise.
-/

namespace DiaryMemory

/-! ## The phases of a delivery -/

/-- How far a delivery is. -/
inductive Phase where
  | start
  | stored
  | replaying (s : SourceMessage)
  | found (s : SourceMessage) (note : Option Note)

/-- What a delivery may call in its phase, and where a reply takes it. Once it stored the row it
may call what it likes. -/
def phases (key : MessageKey) : Contract Call Reply Phase where
  pre
    | _, .stored => True
    | .sys .now, _ | .sys .uuid4, _ => True
    | .repo (.getOrCreateSourceMessage s), .start => s.messageKey = key
    | .repo (.getNoteBySourceMessageId id), .replaying s => id = s.sourceMessageId
    | .repo (.countEventChunksForSource _), .found .. => True
    | _, _ => False
  post
    | .repo (.getOrCreateSourceMessage _), .start, .ok (s, true), t' => t' = .replaying s
    | .repo (.getOrCreateSourceMessage _), .start, .ok (_, false), t' => t' = .stored
    | .repo (.getNoteBySourceMessageId _), .replaying s, .ok note, t' => t' = .found s note
    | _, t, _, t' => t' = t

/-- Besides the clock and the identifiers, a delivery asks for the row first. -/
theorem Phase.of_start {key : MessageKey} {c : Call} (h : (phases key).pre c .start)
    (hc : c ≠ .sys .now ∧ c ≠ .sys .uuid4) :
    ∃ s, c = .repo (.getOrCreateSourceMessage s) ∧ s.messageKey = key := by
  cases c with
  | repo c =>
    cases c with
    | getOrCreateSourceMessage s => exact ⟨s, rfl, h⟩
    | _ => exact h.elim
  | sys c =>
    cases c with
    | now => exact absurd rfl hc.1
    | uuid4 => exact absurd rfl hc.2
    | _ => exact h.elim

/-- A replay asks for the note of the row it was given. -/
theorem Phase.of_replaying {key : MessageKey} {c : Call} {s : SourceMessage}
    (h : (phases key).pre c (.replaying s)) (hc : c ≠ .sys .now ∧ c ≠ .sys .uuid4) :
    c = .repo (.getNoteBySourceMessageId s.sourceMessageId) := by
  cases c with
  | repo c =>
    cases c with
    | getNoteBySourceMessageId id => exact congrArg _ (congrArg _ h)
    | _ => exact h.elim
  | sys c =>
    cases c with
    | now => exact absurd rfl hc.1
    | uuid4 => exact absurd rfl hc.2
    | _ => exact h.elim

/-- Then it counts chunks. -/
theorem Phase.of_found {key : MessageKey} {c : Call} {s : SourceMessage} {note : Option Note}
    (h : (phases key).pre c (.found s note)) (hc : c ≠ .sys .now ∧ c ≠ .sys .uuid4) :
    ∃ id, c = .repo (.countEventChunksForSource id) := by
  cases c with
  | repo c =>
    cases c with
    | countEventChunksForSource id => exact ⟨id, rfl⟩
    | _ => exact h.elim
  | sys c =>
    cases c with
    | now => exact absurd rfl hc.1
    | uuid4 => exact absurd rfl hc.2
    | _ => exact h.elim

/-- What a delivery returns in the phase it ends in. -/
def Phase.Ends (r : Except Exn IngestResult) : Phase → Prop
  | .start => isRaise r
  | .stored => True
  | .replaying s => isRaise r ∨ s.detectedRoute = .draft ∧
    r = .ok { fallback := .none, sourceMessageId := s.sourceMessageId, replayed := true }
  | .found s none => isRaise r ∨ r = .ok
    { fallback := .invalidInput, sourceMessageId := s.sourceMessageId
      invalidFirstLine := some (firstLine s.rawText), replayed := true }
  | .found s (some n) => isRaise r ∨ ∃ eventsCount, r = .ok
    { fallback := .none, sourceMessageId := s.sourceMessageId, noteDate := some n.noteDate
      eventsCount, replayed := true }

/-- After a delivery stored the row nothing is asked of it. -/
theorem wp_stored {key : MessageKey} : ∀ p : Prog Call Reply (Except Exn IngestResult),
    p.wp (phases key) Phase.Ends .stored
  | .ret _ => trivial
  | .call c k => by
    refine ⟨?_, fun r t hpost => ?_⟩
    · cases c <;> trivial
    · obtain rfl : t = .stored := by
        cases c with
        | sys c => exact hpost
        | repo c => cases c <;> exact hpost
      exact wp_stored (k r)

theorem wp_replaying {key : MessageKey} (s : SourceMessage) :
    wp (phases key) (DomainService.reconstructResult s) Phase.Ends (.replaying s) := by
  unfold DomainService.reconstructResult
  split
  · next hdraft => exact .inr ⟨hdraft, rfl⟩
  · rw [wp_bind]
    refine ⟨rfl, fun r t hpost => ?_⟩
    cases r with
    | error e =>
      obtain rfl : t = .replaying s := hpost
      exact .inl rfl
    | ok note =>
      obtain rfl : t = .found s note := hpost
      cases note with
      | none => exact .inr rfl
      | some n =>
        change wp (phases key) (Proc.countEventChunksForSource s.sourceMessageId >>= _) _ _
        rw [wp_bind]
        refine ⟨trivial, fun r t hpost => ?_⟩
        obtain rfl : t = .found s (some n) := hpost
        cases r with
        | error e => exact .inl rfl
        | ok count => exact .inr ⟨count, rfl⟩

/-- A delivery goes through its phases. -/
theorem wp_delivery (service : DomainService) (message : InboundMessage) :
    wp (phases message.messageKey) (service.ingest message) Phase.Ends .start := by
  unfold DomainService.ingest
  rw [wp_bind]
  refine (wp_ask (Proc.sys .now) _ _).mpr ⟨trivial, fun now t hpost => ?_⟩
  obtain rfl : t = .start := hpost
  change wp (phases message.messageKey) (Proc.uuid4 >>= _) _ _
  rw [wp_bind]
  refine (wp_ask (Proc.sys .uuid4) _ _).mpr ⟨trivial, fun id t hpost => ?_⟩
  obtain rfl : t = .start := hpost
  change wp (phases message.messageKey) (Proc.getOrCreateSourceMessage _ >>= _) _ _
  rw [wp_bind]
  refine ⟨rfl, fun r t hpost => ?_⟩
  match r with
  | .error e =>
    obtain rfl : t = .start := hpost
    exact rfl
  | .ok (s, true) =>
    obtain rfl : t = .replaying s := hpost
    exact wp_replaying s
  | .ok (_, false) =>
    obtain rfl : t = .stored := hpost
    exact wp_stored _

/-! ## What the others leave alone -/

section Sharing

variable {kind : StoreKind} {engine : SearchEngine} {env : Env}

/-- A row that holds the key is returned, and the store is as it was. -/
theorem StoreKind.getOrCreate_existing {st : (kind.backend engine).State}
    (hc : kind.Consistent engine st) {s candidate : SourceMessage}
    (h : ((kind.backend engine).tables st).sourceForKey candidate.messageKey = some s) :
    (kind.backend engine).handle (.getOrCreateSourceMessage candidate) st = (.ok (s, true), st) := by
  cases kind with
  | mock =>
    have hfind : st.toTables.sourceForKey candidate.messageKey = some s := h
    change MockDomainStore.getOrCreateSourceMessage st candidate = _
    rw [MockDomainStore.getOrCreateSourceMessage_eq hc, hfind]
    rfl
  | sql dialect =>
    have hfind : Tables.sourceForKey st candidate.messageKey = some s := h
    change SqlDomainStore.returning st
      (SqlDomainStore.getOrCreateSourceMessage dialect candidate st) = _
    unfold SqlDomainStore.getOrCreateSourceMessage
    rw [hfind]
    rfl

/-- What a repository call replies : it fails by itself, or the store answers. -/
theorem serve_repo_eq (B : Backend) (env : Env) (c : RepoCall) (w : World B.State) :
    (∃ e, (serve B env (.repo c) w).1 = .error e ∧ (serve B env (.repo c) w).2.store = w.store) ∨
      (serve B env (.repo c) w).1 = (B.handle c w.store).1 ∧
        (serve B env (.repo c) w).2.store = (B.handle c w.store).2 := by
  simp only [serve, respond, serveRepo]
  cases env.storeFails w.tick c with
  | some e => exact .inl ⟨e, rfl, rfl⟩
  | none => exact .inr ⟨rfl, rfl⟩

/-! ## Who stored the row -/

variable {ι : Type} [DecidableEq ι]

/-- The deliveries before their first call. -/
def deliveries (service : ι → DomainService) (message : ι → InboundMessage)
    (w₀ : World (kind.backend engine).State) :
    Pool ι Call Reply (Except Exn IngestResult) (World (kind.backend engine).State) :=
  ⟨w₀, fun i => ((service i).ingest (message i)).run⟩

/-- A delivery is where it would be alone. -/
def InTurn (env : Env) (service : DomainService) (message : InboundMessage)
    (w₀ w : World (kind.backend engine).State) (p : Prog Call Reply (Except Exn IngestResult)) :
    Prop :=
  ∃ v moment ids, Alone env
    (fun env' => IngestPromise env' service.embeddingClient message.communityId w₀.rows)
    (fun env' => IngestOutcome env' service message w₀) w₀ w (service.ingest message).run p v
    moment ids

/-- A replay looked up the note of its source row, and the note is still there. -/
structure Lookup (w₀ w : World (kind.backend engine).State) (s : SourceMessage)
    (note : Option Note) : Prop where
  event : ∃ e ∈ w.log.drop w₀.tick,
    e.call = .repo (.getNoteBySourceMessageId s.sourceMessageId) ∧ e.raised = false ∧
      e.before.getNoteBySourceMessageId s.sourceMessageId = note
  note : ∀ n ∈ note, ∃ n' ∈ w.rows.notes, n.Same n'

variable {service : ι → DomainService} {message : ι → InboundMessage}
  {w₀ : World (kind.backend engine).State}
  {p : Pool ι Call Reply (Except Exn IngestResult) (World (kind.backend engine).State)}
  {g : ι → Phase}

/-- No delivery has stored the source row yet. -/
structure Unstored (env : Env) (service : ι → DomainService) (message : ι → InboundMessage)
    (w₀ : World (kind.backend engine).State)
    (p : Pool ι Call Reply (Except Exn IngestResult) (World (kind.backend engine).State))
    (g : ι → Phase) : Prop where
  store : p.state.store = w₀.store
  phase : ∀ i, g i = .start
  alone : ∀ i, InTurn env (service i) (message i) w₀ p.state (p.progs i)

/-- Delivery `i` has stored the source row `s`. -/
structure StoredBy (env : Env) (service : ι → DomainService) (message : ι → InboundMessage)
    (w₀ : World (kind.backend engine).State) (i : ι) (s : SourceMessage)
    (p : Pool ι Call Reply (Except Exn IngestResult) (World (kind.backend engine).State))
    (g : ι → Phase) : Prop where
  source : s ∈ p.state.rows.sourceMessages
  phase : g i = .stored
  others : ∀ j, j ≠ i → g j = .start ∨ g j = .replaying s ∨
    ∃ note, g j = .found s note ∧ Lookup w₀ p.state s note
  alone : InTurn env (service i) (message i) w₀ p.state (p.progs i)

section Facts

variable {service : DomainService} {message : InboundMessage}
  {w w' : World (kind.backend engine).State} {q : Prog Call Reply (Except Exn IngestResult)}

theorem inTurn_init (hs : Sound env w₀) (service : DomainService) (message : InboundMessage) :
    InTurn env service message w₀ w₀ (service.ingest message).run :=
  ⟨w₀, id, .refl ℕ, .init hs fun _ _ hs' =>
    (wp_ingest hs' fun _ _ h => h : wp _ (service.ingest message) _ w₀)⟩

theorem InTurn.beside (h : InTurn env service message w₀ w q) (hu : Untouched w w') :
    InTurn env service message w₀ w' q := by
  obtain ⟨v, moment, ids, ha⟩ := h
  exact ⟨v, moment, ids, ha.beside hu⟩

theorem InTurn.store (h : InTurn env service message w₀ w q) :
    w.rows.Linked ∧ kind.Consistent engine w.store := by
  obtain ⟨v, moment, ids, ha⟩ := h
  obtain ⟨hs, -⟩ := ha.now
  exact ⟨ha.rows ▸ hs.linked, ha.store ▸ hs.consistent⟩

theorem InTurn.tick_le (h : InTurn env service message w₀ w q) : w₀.tick ≤ w.tick := by
  obtain ⟨v, moment, ids, ha⟩ := h
  exact ha.start.length_le.trans ha.log.length_le

/-- What a call of a delivery does to the rows. -/
theorem InTurn.evolves {c : Call} {k : Reply c → Prog Call Reply (Except Exn IngestResult)}
    (h : InTurn env service message w₀ w (.call c k)) :
    InTurn env service message w₀ (serve (kind.backend engine) env c w).2
        (k (serve (kind.backend engine) env c w).1) ∧
      Tables.Evolves (fun _ => False) w.rows (serve (kind.backend engine) env c w).2.rows := by
  obtain ⟨v, moment, ids, ha⟩ := h
  obtain ⟨v', moment', ids', ha', hout, hallowed, hP⟩ := ha.step
  refine ⟨⟨v', moment', ids', ha'⟩, ?_⟩
  rw [← ha'.rows, ← ha.rows]
  cases c with
  | sys c =>
    rw [hout.1.rows]
    exact .refl _
  | repo c =>
    revert hout
    cases (serve (kind.backend engine) env (.repo c) w).1 with
    | error e =>
      intro hout
      rw [Raised.rows hout]
      exact .refl _
    | ok r =>
      intro hout
      rw [Returned.rows hout]
      refine (Tables.evolves_effect hallowed.1).mono ?_
      rintro id ⟨community, rfl⟩
      obtain ⟨source, -, hcall⟩ := hP
      exact hcall

theorem Lookup.mono {s : SourceMessage} {note : Option Note} (h : Lookup w₀ w s note)
    (hlog : w.log <+: w'.log) (he : Tables.Evolves (fun _ => False) w.rows w'.rows) :
    Lookup w₀ w' s note where
  event := by
    obtain ⟨e, hmem, hcall⟩ := h.event
    obtain ⟨es, hes⟩ := hlog
    refine ⟨e, ?_, hcall⟩
    rw [← hes, List.drop_append]
    exact List.mem_append_left _ hmem
  note n hn := by
    obtain ⟨n', hn', hsame⟩ := h.note n hn
    rcases he.notes n' hn' with ⟨n'', hn'', he'⟩ | hf
    · exact ⟨n'', hn'', hsame.trans he'.1⟩
    · exact hf.elim

end Facts

/-! ## One call of one delivery -/

/-- The row is stored by a delivery, or not stored yet. -/
def Deciding (env : Env) (service : ι → DomainService) (message : ι → InboundMessage)
    (w₀ : World (kind.backend engine).State)
    (p : Pool ι Call Reply (Except Exn IngestResult) (World (kind.backend engine).State))
    (g : ι → Phase) : Prop :=
  Unstored env service message w₀ p g ∨
    ∃ i s, s.messageKey = (message i).messageKey ∧ StoredBy env service message w₀ i s p g

variable {key : MessageKey} {i : ι} {c : Call}
  {k : Reply c → Prog Call Reply (Except Exn IngestResult)}

/-- Nobody stored the row, and nobody does by a call that leaves the store alone. -/
theorem Unstored.beside (h : Unstored env service message w₀ p g) (hi : p.progs i = .call c k)
    (hu : Untouched p.state (serve (kind.backend engine) env c p.state).2) :
    Unstored env service message w₀ (p.step (serve (kind.backend engine) env) i)
      (Function.update g i .start) := by
  rw [Pool.step_call hi]
  have hself := h.alone i
  rw [hi] at hself
  refine ⟨hu.store.trans h.store, fun j => ?_, fun j => ?_⟩
  · by_cases hj : j = i
    · subst hj
      exact Function.update_self ..
    · exact (Function.update_of_ne hj _ _).trans (h.phase j)
  · by_cases hj : j = i
    · subst hj
      simpa using hself.evolves.1
    · simpa [Function.update_of_ne hj] using (h.alone j).beside hu

/-- Another delivery goes on while the row is stored. -/
theorem StoredBy.beside {s : SourceMessage} {j : ι} (h : StoredBy env service message w₀ j s p g)
    (hi : p.progs i = .call c k) (hne : i ≠ j)
    (hu : Untouched p.state (serve (kind.backend engine) env c p.state).2) {t : Phase}
    (ht : t = .start ∨ t = .replaying s ∨ ∃ note, t = .found s note ∧
      Lookup w₀ (serve (kind.backend engine) env c p.state).2 s note) :
    StoredBy env service message w₀ j s (p.step (serve (kind.backend engine) env) i)
      (Function.update g i t) := by
  rw [Pool.step_call hi]
  have hrows : (serve (kind.backend engine) env c p.state).2.rows = p.state.rows := by
    rw [World.rows, hu.store, World.rows]
  refine ⟨?_, ?_, fun x hx => ?_, ?_⟩
  · exact hrows.symm ▸ h.source
  · exact (Function.update_of_ne hne.symm _ _).trans h.phase
  · by_cases hxi : x = i
    · subst hxi
      simpa using ht
    · rw [Function.update_of_ne hxi]
      refine (h.others x hx).imp_right (Or.imp_right ?_)
      rintro ⟨note, hnote, hlook⟩
      exact ⟨note, hnote, hlook.mono hu.log (hrows ▸ .refl _)⟩
  · simpa [Function.update_of_ne hne.symm] using h.alone.beside hu

/-- The delivery that stored the row goes on. -/
theorem StoredBy.go {s : SourceMessage} (h : StoredBy env service message w₀ i s p g)
    (hi : p.progs i = .call c k) :
    StoredBy env service message w₀ i s (p.step (serve (kind.backend engine) env) i)
      (Function.update g i .stored) := by
  rw [Pool.step_call hi]
  have hself := h.alone
  rw [hi] at hself
  obtain ⟨hnext, he⟩ := hself.evolves
  refine ⟨(he.sources s h.source).resolve_right id, Function.update_self .., fun x hx => ?_, ?_⟩
  · rw [Function.update_of_ne hx]
    refine (h.others x hx).imp_right (Or.imp_right ?_)
    rintro ⟨note, hnote, hlook⟩
    refine ⟨note, hnote, hlook.mono ?_ he⟩
    rw [log_serve]
    exact List.prefix_append _ _
  · simpa using hnext

/-- The first delivery to ask for the row stores it. -/
theorem Unstored.create (h : Unstored env service message w₀ p g)
    (hnone : w₀.rows.sourceForKey (message i).messageKey = none) {s : SourceMessage}
    {k : Reply (.repo (.getOrCreateSourceMessage s)) → Prog Call Reply (Except Exn IngestResult)}
    (hi : p.progs i = .call (.repo (.getOrCreateSourceMessage s)) k)
    (hs : s.messageKey = (message i).messageKey) :
    ∃ t, (phases (message i).messageKey).post (.repo (.getOrCreateSourceMessage s)) .start
        (serve (kind.backend engine) env (.repo (.getOrCreateSourceMessage s)) p.state).1 t ∧
      Deciding env service message w₀ (p.step (serve (kind.backend engine) env) i)
        (Function.update g i t) := by
  obtain ⟨v, moment, ids, ha⟩ := h.alone i
  rw [hi] at ha
  obtain ⟨v', moment', ids', ha', hout, -⟩ := ha.step
  have hnext : InTurn env (service i) (message i) w₀ _ _ := ⟨v', moment', ids', ha'⟩
  have hrows : v.rows = w₀.rows := by
    rw [World.rows, ha.store, h.store, World.rows]
  revert hnext
  cases hr : (serve (kind.backend engine) env (.repo (.getOrCreateSourceMessage s)) p.state).1 with
  | error e =>
    rw [hr] at hout
    have hstore := ha'.store.symm.trans ((Raised.store hout).trans ha.store)
    exact fun _ => ⟨.start, rfl, .inl (h.beside hi (untouched_repo hstore))⟩
  | ok r =>
    rw [hr] at hout
    have hkey : v.rows.sourceForKey s.messageKey = none := by rw [hrows, hs, hnone]
    obtain rfl : r = (s, false) := (RepoCall.returns_new hkey).mp (Returned.value hout)
    have heffect : v'.rows = v.rows.putSource s :=
      (Returned.rows hout).trans (RepoCall.effect_new hkey)
    intro hnext
    refine ⟨.stored, rfl, .inr ⟨i, s, hs, ?_⟩⟩
    rw [Pool.step_call hi]
    refine ⟨?_, Function.update_self .., fun j hj => .inl ?_, ?_⟩
    · have hmem : s ∈ v'.rows.sourceMessages := by
        rw [heffect]
        exact Table.mem_put_self
      exact ha'.rows ▸ hmem
    · exact (Function.update_of_ne hj _ _).trans (h.phase j)
    · simpa [hr] using hnext

/-- Every later one is given the row that was stored. -/
theorem StoredBy.create {s : SourceMessage} {j : ι} (h : StoredBy env service message w₀ j s p g)
    (hne : i ≠ j) {candidate : SourceMessage} (hkey : candidate.messageKey = s.messageKey)
    {k : Reply (.repo (.getOrCreateSourceMessage candidate)) →
      Prog Call Reply (Except Exn IngestResult)}
    (hi : p.progs i = .call (.repo (.getOrCreateSourceMessage candidate)) k) :
    ∃ t, (phases key).post (.repo (.getOrCreateSourceMessage candidate)) .start
        (serve (kind.backend engine) env (.repo (.getOrCreateSourceMessage candidate)) p.state).1 t ∧
      StoredBy env service message w₀ j s (p.step (serve (kind.backend engine) env) i)
        (Function.update g i t) := by
  obtain ⟨hlinked, hconsistent⟩ := h.alone.store
  have hfind : p.state.rows.sourceForKey candidate.messageKey = some s :=
    hkey ▸ hlinked.sourceForKey h.source
  have hexisting := StoreKind.getOrCreate_existing hconsistent hfind
  rcases serve_repo_eq (kind.backend engine) env (.getOrCreateSourceMessage candidate) p.state with
    ⟨e, hr, hstore⟩ | ⟨hr, hstore⟩
  · rw [hr]
    exact ⟨.start, rfl, h.beside hi hne (untouched_repo hstore) (.inl rfl)⟩
  · rw [hexisting] at hr hstore
    rw [hr]
    exact ⟨.replaying s, rfl, h.beside hi hne (untouched_repo hstore) (.inr (.inl rfl))⟩

/-- A replay looks up the note. -/
theorem StoredBy.lookup {s : SourceMessage} {j : ι} (h : StoredBy env service message w₀ j s p g)
    (hne : i ≠ j) {k : Reply (.repo (.getNoteBySourceMessageId s.sourceMessageId)) →
      Prog Call Reply (Except Exn IngestResult)}
    (hi : p.progs i = .call (.repo (.getNoteBySourceMessageId s.sourceMessageId)) k) :
    ∃ t, (phases key).post (.repo (.getNoteBySourceMessageId s.sourceMessageId)) (.replaying s)
        (serve (kind.backend engine) env
          (.repo (.getNoteBySourceMessageId s.sourceMessageId)) p.state).1 t ∧
      StoredBy env service message w₀ j s (p.step (serve (kind.backend engine) env) i)
        (Function.update g i t) := by
  rcases serve_repo_eq (kind.backend engine) env (.getNoteBySourceMessageId s.sourceMessageId)
    p.state with ⟨e, hr, hstore⟩ | ⟨hr, hstore⟩
  · rw [hr]
    exact ⟨.replaying s, rfl, h.beside hi hne (untouched_repo hstore) (.inr (.inl rfl))⟩
  · have hread : (kind.backend engine).handle (.getNoteBySourceMessageId s.sourceMessageId)
        p.state.store =
        (.ok (p.state.rows.getNoteBySourceMessageId s.sourceMessageId), p.state.store) := by
      cases kind <;> rfl
    rw [hread] at hr hstore
    have hu := untouched_repo hstore
    have hrows : (serve (kind.backend engine) env
        (.repo (.getNoteBySourceMessageId s.sourceMessageId)) p.state).2.rows = p.state.rows := by
      rw [World.rows, hu.store, World.rows]
    rw [hr]
    refine ⟨.found s (p.state.rows.getNoteBySourceMessageId s.sourceMessageId), rfl,
      h.beside hi hne hu (.inr (.inr ⟨_, rfl, ⟨⟨p.state.rows, _, false⟩, ?_, rfl, rfl, rfl⟩, ?_⟩))⟩
    · rw [log_serve, hr, List.drop_append_of_le_length h.alone.tick_le]
      exact List.mem_append_right _ (List.mem_singleton_self _)
    · intro n hn
      exact ⟨n, hrows.symm ▸ List.mem_of_find?_eq_some hn, .refl n⟩

/-- A replay counts the chunks. -/
theorem StoredBy.count {s : SourceMessage} {j : ι} (h : StoredBy env service message w₀ j s p g)
    (hne : i ≠ j) {id : String} {k : Reply (.repo (.countEventChunksForSource id)) →
      Prog Call Reply (Except Exn IngestResult)}
    (hi : p.progs i = .call (.repo (.countEventChunksForSource id)) k) :
    StoredBy env service message w₀ j s (p.step (serve (kind.backend engine) env) i)
      (Function.update g i (g i)) := by
  have hstore : (serve (kind.backend engine) env (.repo (.countEventChunksForSource id))
      p.state).2.store = p.state.store := by
    rcases serve_repo_eq (kind.backend engine) env (.countEventChunksForSource id) p.state with
      ⟨e, -, hstore⟩ | ⟨-, hstore⟩
    · exact hstore
    · refine hstore.trans ?_
      cases kind <;> rfl
  have hu := untouched_repo hstore
  refine h.beside hi hne hu ?_
  rcases h.others i hne with hstart | hreplaying | ⟨note', hfound, hlook⟩
  · exact .inl hstart
  · exact .inr (.inl hreplaying)
  · refine .inr (.inr ⟨note', hfound, hlook.mono hu.log ?_⟩)
    rw [World.rows, World.rows, hu.store]
    exact .refl _

/-- A call that only reads the clock or draws an identifier. -/
theorem Deciding.unseen (h : Deciding env service message w₀ p g) (hi : p.progs i = .call c k)
    (hu : Untouched p.state (serve (kind.backend engine) env c p.state).2) :
    Deciding env service message w₀ (p.step (serve (kind.backend engine) env) i)
      (Function.update g i (g i)) := by
  rcases h with h | ⟨j, s, hkey, h⟩
  · rw [h.phase i]
    exact .inl (h.beside hi hu)
  · refine .inr ⟨j, s, hkey, ?_⟩
    by_cases hij : i = j
    · subst hij
      rw [h.phase]
      exact h.go hi
    · refine h.beside hi hij hu ?_
      refine (h.others i hij).imp_right (Or.imp_right ?_)
      rintro ⟨note, hnote, hlook⟩
      refine ⟨note, hnote, hlook.mono hu.log ?_⟩
      rw [World.rows, World.rows, hu.store]
      exact .refl _

/-- Another delivery than the one that stored the row makes a call. -/
theorem StoredBy.other {s : SourceMessage} {j : ι} (h : StoredBy env service message w₀ j s p g)
    (hij : i ≠ j) (hs : s.messageKey = key) (hi : p.progs i = .call c k)
    (hpre : (phases key).pre c (g i)) (hseen : c ≠ .sys .now ∧ c ≠ .sys .uuid4) :
    ∃ t, (phases key).post c (g i) (serve (kind.backend engine) env c p.state).1 t ∧
      StoredBy env service message w₀ j s (p.step (serve (kind.backend engine) env) i)
        (Function.update g i t) := by
  rcases h.others i hij with hstart | hreplaying | ⟨note, hfound, -⟩
  · rw [hstart] at hpre ⊢
    obtain ⟨candidate, rfl, hkey⟩ := Phase.of_start hpre hseen
    exact h.create hij (hkey.trans hs.symm) hi
  · rw [hreplaying] at hpre ⊢
    obtain rfl := Phase.of_replaying hpre hseen
    exact h.lookup hij hi
  · obtain ⟨id, rfl⟩ := Phase.of_found (hfound ▸ hpre) hseen
    have hcount := h.count hij hi
    rw [hfound] at hcount ⊢
    exact ⟨_, rfl, hcount⟩

/-- Every call of every delivery keeps the decision. -/
theorem deciding_step (hnone : w₀.rows.sourceForKey key = none)
    (hkey : ∀ i, (message i).messageKey = key)
    (p : Pool ι Call Reply (Except Exn IngestResult) (World (kind.backend engine).State))
    (g : ι → Phase) (i : ι) (c : Call) (k : Reply c → Prog Call Reply (Except Exn IngestResult))
    (hi : p.progs i = .call c k) (h : Deciding env service message w₀ p g)
    (hpre : (phases key).pre c (g i)) :
    ∃ t, (phases key).post c (g i) (serve (kind.backend engine) env c p.state).1 t ∧
      Deciding env service message w₀ (p.step (serve (kind.backend engine) env) i)
        (Function.update g i t) := by
  by_cases hnow : c = .sys .now
  · subst hnow
    exact ⟨g i, by cases g i <;> rfl, h.unseen hi (untouched_now env p.state)⟩
  by_cases huuid : c = .sys .uuid4
  · subst huuid
    exact ⟨g i, by cases g i <;> rfl, h.unseen hi (untouched_uuid4 env p.state)⟩
  rcases h with h | ⟨j, s, hs, h⟩
  · rw [h.phase i] at hpre ⊢
    obtain ⟨s, rfl, hs⟩ := Phase.of_start hpre ⟨hnow, huuid⟩
    rw [← hkey i] at hs hnone ⊢
    exact h.create hnone hi hs
  · by_cases hij : i = j
    · subst hij
      rw [h.phase]
      refine ⟨.stored, ?_, .inr ⟨i, s, hs, h.go hi⟩⟩
      cases c with
      | sys c => rfl
      | repo c => cases c <;> rfl
    · obtain ⟨t, hpost, h'⟩ := h.other hij (hs.trans (hkey j)) hi hpre ⟨hnow, huuid⟩
      exact ⟨t, hpost, .inr ⟨j, s, hs, h'⟩⟩

/-! ## All calls of all deliveries -/

/-- Where a delivery that went on as if alone has returned. -/
structure EndsAlone (env : Env) (service : DomainService) (message : InboundMessage)
    (w₀ w : World (kind.backend engine).State) (r : Except Exn IngestResult)
    (v : World (kind.backend engine).State) (moment : ℕ → ℕ) (ids : Equiv.Perm ℕ) : Prop where
  exec : (service.ingest message).exec (kind.backend engine) (env.along moment ids) w₀ = (r, v)
  outcome : IngestOutcome (env.along moment ids) service message w₀ r v
  sound : Sound (env.along moment ids) v
  store : v.store = w.store
  asked : v.asked = w.asked
  start : w₀.log <+: v.log
  log : v.log.Sublist w.log
  entry : ∀ n, w₀.tick ≤ n → n < v.tick → w₀.tick ≤ moment n ∧ w.log[moment n]? = v.log[n]?

theorem InTurn.returned {service : DomainService} {message : InboundMessage}
    {w : World (kind.backend engine).State} {r : Except Exn IngestResult}
    (h : InTurn env service message w₀ w (.ret r)) :
    ∃ v moment ids, EndsAlone env service message w₀ w r v moment ids := by
  obtain ⟨v, moment, ids, ha⟩ := h
  obtain ⟨hs, hout, hrun⟩ := ha.now
  exact ⟨v, moment, ids, hrun, hout, hs, ha.store, ha.asked, ha.start, ha.log, ha.entry⟩

section Ends

variable {service : DomainService} {message : InboundMessage}
  {w v : World (kind.backend engine).State} {r : Except Exn IngestResult} {moment : ℕ → ℕ}
  {ids : Equiv.Perm ℕ}

theorem EndsAlone.rows (h : EndsAlone env service message w₀ w r v moment ids) :
    v.rows = w.rows := by
  rw [World.rows, h.store, World.rows]

/-- The calls of the delivery that raised are among those that raised. -/
theorem EndsAlone.failed (h : EndsAlone env service message w₀ w r v moment ids) {c : RepoCall}
    (hc : c ∈ v.failures.drop w₀.failures.length) : c ∈ w.failures.drop w₀.failures.length :=
  ((h.log.filterMap Event.failure).drop w₀.failures.length).subset hc

/-- Where no call raised, none of the delivery did. -/
theorem EndsAlone.failures (h : EndsAlone env service message w₀ w r v moment ids)
    (hf : w.failures = w₀.failures) : v.failures = w₀.failures := by
  have hprefix : w₀.failures <+: v.failures := h.start.filterMap Event.failure
  obtain ⟨fs, hfs⟩ := hprefix
  have hnil : fs = [] := List.eq_nil_iff_forall_not_mem.mpr fun c hc => by
    have hv : c ∈ v.failures.drop w₀.failures.length := by
      rw [← hfs, List.drop_left]
      exact hc
    have hw := h.failed hv
    rw [hf, List.drop_length] at hw
    cases hw
  rw [← hfs, hnil, List.append_nil]

end Ends

/-- What the deliveries come to once the row is stored : `i` stored it, and ended as it would
alone; the others replay it, or raised. -/
structure Decided (env : Env) (service : ι → DomainService) (message : ι → InboundMessage)
    (w₀ w : World (kind.backend engine).State) (results : ι → Except Exn IngestResult) (i : ι)
    (s : SourceMessage) : Prop where
  source : s ∈ w.rows.sourceMessages
  key : s.messageKey = (message i).messageKey
  alone : ∃ v moment ids, EndsAlone env (service i) (message i) w₀ w (results i) v moment ids
  others : ∀ j, j ≠ i → isRaise (results j) ∨ Phase.Ends (results j) (.replaying s) ∨
    ∃ note, Phase.Ends (results j) (.found s note) ∧ Lookup w₀ w s note

/-- However the calls of the deliveries follow each other, one of them stores the row, or all
of them raise before. -/
theorem deliveries_run (hs : Sound env w₀) (hnone : w₀.rows.sourceForKey key = none)
    (hkey : ∀ i, (message i).messageKey = key) {schedule : List ι}
    {results : ι → Except Exn IngestResult}
    (hresults : ((deliveries service message w₀).run (serve (kind.backend engine) env)
      schedule).Returned results) :
    ((deliveries service message w₀).run (serve (kind.backend engine) env) schedule).state.store =
        w₀.store ∧ (∀ i, isRaise (results i) ∧ InTurn env (service i) (message i) w₀
          ((deliveries service message w₀).run (serve (kind.backend engine) env) schedule).state
          (.ret (results i))) ∨
      ∃ i s, Decided env service message w₀
        ((deliveries service message w₀).run (serve (kind.backend engine) env) schedule).state
        results i s := by
  obtain ⟨g, hends, hdeciding⟩ := Pool.returned_of_wp (C := phases key)
    (Q := fun _ => Phase.Ends) (g := fun _ => .start) (deciding_step hnone hkey)
    (fun j => hkey j ▸ wp_delivery (service j) (message j))
    (.inl ⟨rfl, fun _ => rfl, fun i => inTurn_init hs (service i) (message i)⟩) hresults
  rcases hdeciding with h | ⟨i, s, hskey, h⟩
  · refine .inl ⟨h.store, fun i => ⟨?_, ?_⟩⟩
    · have hend := hends i
      rwa [h.phase i] at hend
    · exact hresults i ▸ h.alone i
  · refine .inr ⟨i, s, h.source, hskey, (hresults i ▸ h.alone : InTurn _ _ _ _ _ _).returned,
      fun j hj => ?_⟩
    have hend := hends j
    rcases h.others j hj with hstart | hreplaying | ⟨note, hfound, hlook⟩
    · rw [hstart] at hend
      exact .inl hend
    · rw [hreplaying] at hend
      exact .inr (.inl hend)
    · rw [hfound] at hend
      exact .inr (.inr ⟨note, hend, hlook⟩)

end Sharing

end DiaryMemory
