import DiaryMemory.Operations

/-!
# What the rows of a store become

Whatever is called, and whether or not calls fail, a source row is never altered, a note or
a chunk keeps all but its marks, and a lifecycle state changes at most once, away from
active (`Tables.Evolves`). Only a hard delete that succeeded removes rows, those of the
source it names (`Event.removal`). `Trace.evolves` carries the law of a single call along
every trace, and so along every run.
-/

namespace DiaryMemory

/-! ## One call -/

/-- The same note, whose state changed at most from active. -/
def Note.Evolved (n n' : Note) : Prop :=
  n.Same n' ∧ (n.lifecycleState = .active ∨ n'.lifecycleState = n.lifecycleState)

/-- The same chunk up to its embedding status, whose state changed at most from active. -/
def EventChunk.Evolved (c c' : EventChunk) : Prop :=
  c.Same c' ∧ (c.lifecycleState = .active ∨ c'.lifecycleState = c.lifecycleState)

theorem Note.Evolved.refl (n : Note) : n.Evolved n := ⟨.refl n, .inr rfl⟩

theorem EventChunk.Evolved.refl (c : EventChunk) : c.Evolved c := ⟨.refl c, .inr rfl⟩

theorem Note.Evolved.trans {n n' n'' : Note} (h : n.Evolved n') (h' : n'.Evolved n'') :
    n.Evolved n'' := by
  refine ⟨h.1.trans h'.1, ?_⟩
  rcases h.2 with ha | he
  · exact .inl ha
  · rw [← he]
    exact h'.2

theorem EventChunk.Evolved.trans {c c' c'' : EventChunk} (h : c.Evolved c') (h' : c'.Evolved c'') :
    c.Evolved c'' := by
  refine ⟨h.1.trans h'.1, ?_⟩
  rcases h.2 with ha | he
  · exact .inl ha
  · rw [← he]
    exact h'.2

namespace Tables

/-- The rows of `T` are found in `T'`, but for what hangs on a removed source row. -/
structure Evolves (removed : String → Prop) (T T' : Tables) : Prop where
  sources : ∀ s ∈ T.sourceMessages, s ∈ T'.sourceMessages ∨ removed s.sourceMessageId
  notes : ∀ n ∈ T.notes, (∃ n' ∈ T'.notes, n.Evolved n') ∨ removed n.sourceMessageId
  chunks : ∀ c ∈ T.eventChunks, (∃ c' ∈ T'.eventChunks, c.Evolved c') ∨ removed c.sourceMessageId

namespace Evolves

variable {removed removed' : String → Prop} {T T' T'' : Tables}

theorem of_subset (hs : ∀ s ∈ T.sourceMessages, s ∈ T'.sourceMessages)
    (hn : ∀ n ∈ T.notes, n ∈ T'.notes) (hc : ∀ c ∈ T.eventChunks, c ∈ T'.eventChunks) :
    Evolves removed T T' where
  sources s h := .inl (hs s h)
  notes n h := .inl ⟨n, hn n h, .refl n⟩
  chunks c h := .inl ⟨c, hc c h, .refl c⟩

theorem refl (T : Tables) : Evolves removed T T :=
  .of_subset (fun _ h => h) (fun _ h => h) fun _ h => h

theorem mono (hr : ∀ id, removed id → removed' id) (h : Evolves removed T T') :
    Evolves removed' T T' where
  sources s hs := (h.sources s hs).imp_right (hr _)
  notes n hn := (h.notes n hn).imp_right (hr _)
  chunks c hc := (h.chunks c hc).imp_right (hr _)

theorem trans (h : Evolves removed T T') (h' : Evolves removed T' T'') :
    Evolves removed T T'' where
  sources s hs := (h.sources s hs).elim (h'.sources s) .inr
  notes := Table.kept_trans .trans (fun he hr => he.1.sourceMessageId ▸ hr) h.notes h'.notes
  chunks := Table.kept_trans .trans (fun he hr => he.1.sourceMessageId ▸ hr) h.chunks h'.chunks

end Evolves

theorem evolves_removeSource (T : Tables) (id : String) :
    Evolves (· = id) T (T.removeSource id) where
  sources _ hs := Table.mem_discard_or hs of_decide_eq_true
  notes n hn := (Table.mem_discard_or hn of_decide_eq_true).imp_left fun hn => ⟨n, hn, .refl n⟩
  chunks c hc := (Table.mem_discard_or hc of_decide_eq_true).imp_left fun hc => ⟨c, hc, .refl c⟩

theorem evolves_markNote {removed : String → Prop} {T : Tables} {state : LifecycleState}
    {id : String} (h : ∃ n ∈ T.notes, n.noteId = id ∧ n.lifecycleState = .active) :
    Evolves removed T (T.markNote state id) where
  sources s hs := .inl hs
  notes n hn := by
    refine .inl ⟨_, mem_markNote.mpr ⟨n, hn, rfl⟩, ?_⟩
    split
    · next he =>
      obtain ⟨m, hm, hid, ha⟩ := h
      rw [Table.eq_of_key hm hn (hid.trans he.symm)] at ha
      exact ⟨.withState n state, .inl ha⟩
    · exact .refl n
  chunks c hc := .inl ⟨c, hc, .refl c⟩

theorem evolves_markChunk {removed : String → Prop} {T : Tables} {state : LifecycleState}
    {id : String} (h : ∃ c ∈ T.eventChunks, c.chunkId = id ∧ c.lifecycleState = .active) :
    Evolves removed T (T.markChunk state id) where
  sources s hs := .inl hs
  notes n hn := .inl ⟨n, hn, .refl n⟩
  chunks c hc := by
    refine .inl ⟨_, mem_markChunk.mpr ⟨c, hc, rfl⟩, ?_⟩
    split
    · next he =>
      obtain ⟨d, hd, hid, ha⟩ := h
      rw [Table.eq_of_key hd hc (hid.trans he.symm)] at ha
      exact ⟨.withState c state, .inl ha⟩
    · exact .refl c

theorem evolves_setStatus {removed : String → Prop} (T : Tables) (id : String)
    (status : EmbeddingStatus) : Evolves removed T (T.setStatus id status) where
  sources s hs := .inl hs
  notes n hn := .inl ⟨n, hn, .refl n⟩
  chunks c hc := by
    refine .inl ⟨_, mem_setStatus.mpr ⟨c, hc, rfl⟩, ?_⟩
    split
    · exact ⟨.withStatus c status, .inr rfl⟩
    · exact .refl c

/-- What a call made under its guard makes of the rows. -/
theorem evolves_effect {T : Tables} {c : RepoCall} (hg : c.Guard T) :
    Evolves (fun id => ∃ community, c = .hardDeleteSourceMessage id community) T (c.effect T) := by
  cases c with
  | getOrCreateSourceMessage s =>
    rw [RepoCall.effect]
    split
    · exact .refl T
    · exact .of_subset (fun x hx => Table.mem_put_of_ne hx (hg x hx)) (fun _ h => h) fun _ h => h
  | saveNote n =>
    exact .of_subset (fun _ h => h) (fun x hx => Table.mem_put_of_ne hx (hg.1 x hx).1) fun _ h => h
  | saveEventChunks cs =>
    exact .of_subset (fun _ h => h) (fun _ h => h) fun _ hx => hg.keeps_chunk hx
  | setChunkEmbeddingStatus id status => exact evolves_setStatus T id status
  | markNote state id community =>
    obtain ⟨n, hn, hid, -, ha⟩ := hg.2.2.1
    exact evolves_markNote ⟨n, hn, hid, ha⟩
  | markChunk state id community =>
    obtain ⟨c, hc, hid, -, ha⟩ := hg.2.2
    exact evolves_markChunk ⟨c, hc, hid, ha⟩
  | hardDeleteSourceMessage id community =>
    refine (evolves_removeSource T id).mono ?_
    rintro _ rfl
    exact ⟨community, rfl⟩
  | _ => exact .of_subset (fun _ h => h) (fun _ h => h) fun _ h => h

end Tables

/-! ## Runs -/

/-- The source row that a hard delete which succeeded removed. -/
def Event.removal (e : Event) : Option String :=
  match e.call with
  | .repo (.hardDeleteSourceMessage id _) => if e.raised then none else some id
  | _ => none

/-- The source rows removed after the first `n` calls. -/
def World.removalsSince {S : Type} (w : World S) (n : Nat) : List String :=
  (w.log.drop n).filterMap Event.removal

/-- A call made under its guard lets the rows it found evolve. -/
theorem Event.evolves {kind : StoreKind} {e : Event} (hg : e.Served kind) :
    Tables.Evolves (· ∈ [e].filterMap Event.removal) e.before e.after := by
  obtain ⟨before, call, raised⟩ := e
  cases call with
  | sys c => exact .refl _
  | repo c =>
    cases raised with
    | true => exact .refl _
    | false =>
      refine (Tables.evolves_effect hg.1).mono ?_
      rintro id ⟨community, rfl⟩
      simp [Event.removal]

/-- Along a trace, rows evolve and only hard deletes remove. -/
theorem Trace.evolves {kind : StoreKind} {P : Call → Tables → Prop} {T T' : Tables} {es : List Event}
    (h : Trace kind P T es T') : Tables.Evolves (· ∈ es.filterMap Event.removal) T T' := by
  induction h with
  | nil => exact .refl T
  | snoc _ _ hg _ ih =>
    rw [List.filterMap_append]
    exact (ih.mono fun _ => List.mem_append_left _).trans
      ((Event.evolves hg).mono fun _ => List.mem_append_right _)

/-- The same from any call of the trace on. -/
theorem Trace.evolves_from {kind : StoreKind} {P : Call → Tables → Prop} {T T' : Tables} {es : List Event}
    (h : Trace kind P T es T') {i : Nat} {e : Event} (hi : es[i]? = some e) :
    Tables.Evolves (· ∈ (es.drop i).filterMap Event.removal) e.before T' := by
  induction h with
  | nil => simp at hi
  | @snoc es e' _ _ hg _ ih =>
    rcases Nat.lt_or_ge i es.length with hlt | hge
    · rw [List.getElem?_append_left hlt] at hi
      rw [List.drop_append_of_le_length hlt.le, List.filterMap_append]
      exact ((ih hi).mono fun _ => List.mem_append_left _).trans
        ((Event.evolves hg).mono fun _ => List.mem_append_right _)
    · rw [List.getElem?_append_right hge] at hi
      obtain ⟨hzero, rfl⟩ : i - es.length = 0 ∧ e' = e := by
        rcases hk : i - es.length with _ | k
        · rw [hk] at hi
          exact ⟨rfl, Option.some.inj hi⟩
        · rw [hk] at hi
          simp at hi
      rw [show i = es.length by omega, List.drop_left]
      exact Event.evolves hg

section Runs

variable {kind : StoreKind} {engine : SearchEngine} {env : Env}
  {w w' : World (kind.backend engine).State}

/-- The calls of a run of requests. -/
theorem continues_runAll (hs : Sound env w) (ops : List Operation) :
    Continues (fun _ _ => True) w (runAll (kind.backend engine) env w ops) := by
  induction ops generalizing w with
  | nil => exact .refl w
  | cons o ops ih =>
    obtain ⟨hs', hcont⟩ := Operation.run_spec hs o
    exact (hcont.mono fun _ _ _ => trivial).trans (ih hs')

/-- The rows of a run evolve from those it starts on. -/
theorem evolves_runAll (hs : Sound env w) (ops : List Operation) :
    Tables.Evolves (· ∈ (runAll (kind.backend engine) env w ops).removalsSince w.tick) w.rows
      (runAll (kind.backend engine) env w ops).rows := by
  obtain ⟨es, hlog, ht⟩ := continues_runAll hs ops
  rw [World.removalsSince, hlog, World.tick, List.drop_left]
  exact ht.evolves

/-- In every run, whatever fails, the rows that any call found evolve. -/
theorem evolves_run (env : Env) (ops : List Operation) {i : Nat} {e : Event}
    (hi : (runAll (kind.backend engine) env (World.initial kind engine) ops).log[i]? = some e) :
    Tables.Evolves
      (· ∈ (runAll (kind.backend engine) env (World.initial kind engine) ops).removalsSince i)
      e.before (runAll (kind.backend engine) env (World.initial kind engine) ops).rows := by
  obtain ⟨es, hlog, ht⟩ := continues_runAll (sound_initial kind engine env) ops
  have hes : (runAll (kind.backend engine) env (World.initial kind engine) ops).log = es := hlog
  rw [hes] at hi
  rw [World.removalsSince, hes]
  exact ht.evolves_from hi

end Runs

end DiaryMemory
