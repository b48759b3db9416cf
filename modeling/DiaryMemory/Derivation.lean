import DiaryMemory.Capture
import DiaryMemory.Restoring

/-!
# The raw text is enough

Of all requests only an ingest adds notes and source rows, so an invariant of the rows is one of
all runs when ingests keep it and every other call does (`Operation.preserves`). One such
invariant is that a note is the parse of the raw text of its source row (`Tables.Derived`). With
the format of the export this says what an export is for : the rows it is read back as are the
source rows, and they determine date and text of every note and chunk (`export_restores`).
-/

namespace DiaryMemory

/-! ## Requests that are no ingests -/

/-- The calls that only an ingest makes. -/
def RepoCall.OfIngest : RepoCall → Prop
  | getOrCreateSourceMessage _ | saveNote _ | saveEventChunks _ => True
  | _ => False

section Requests

variable {kind : StoreKind} {engine : SearchEngine} {env : Env}
  {w w' : World (kind.backend engine).State} {c : RepoCall} {T : Tables} {community : String}

theorem AnswerCall.not_ofIngest (h : AnswerCall community (.repo c) T) : ¬ c.OfIngest := by
  cases c with
  | getOrCreateSourceMessage | saveNote | saveEventChunks => exact absurd h id
  | _ => exact id

theorem DeleteCall.not_ofIngest (h : DeleteCall community (.repo c) T) : ¬ c.OfIngest := by
  cases c with
  | getOrCreateSourceMessage | saveNote | saveEventChunks => exact absurd h id
  | _ => exact id

/-- What ingests keep, and every call that only other requests make, a request keeps. -/
theorem Operation.preserves {I : Tables → Prop} (hs : Sound env w)
    (hcall : ∀ (c : RepoCall) T, T.Linked → c.Guard T → ¬ c.OfIngest → I T → I (c.effect T))
    (hingest : ∀ (service : DomainService) (message : InboundMessage) {r : Except Exn IngestResult}
      {w' : World (kind.backend engine).State}, IngestOutcome env service message w r w' →
        I w'.rows) (hI : I w.rows) (o : Operation) : I (o.run (kind.backend engine) env w).rows := by
  obtain ⟨-, es, -, ht⟩ := run_spec hs o
  have hkeep : (∀ (c : RepoCall) T, o.Promise env w.rows (.repo c) T → ¬ c.OfIngest) →
      I (o.run (kind.backend engine) env w).rows := fun hP =>
    (ht.keeps (fun c T hl hg _ hp hT => hcall c T hl hg (hP c T hp) hT) hI).1
  cases o with
  | ingest service message => exact hingest service message (ingest_outcome hs service message)
  | delete chat target community => exact hkeep fun c T h => DeleteCall.not_ofIngest h
  | retry service community limit =>
    refine hkeep fun c T h => ?_
    cases c with
    | getOrCreateSourceMessage | saveNote | saveEventChunks => exact absurd h id
    | _ => exact id
  | hardDelete source community =>
    refine hkeep fun c T h => ?_
    cases h
    exact id
  | ask | chat => exact hkeep fun c T h => AnswerCall.not_ofIngest h
  | dispatch dispatcher message =>
    have hcase : ∀ {route : RouteKind}, message.route = route →
        (∀ (c : RepoCall) T, DispatchCall env dispatcher message w.rows (.repo c) T →
          ¬ c.OfIngest) →
        I (run (kind.backend engine) env w (dispatch dispatcher message)).rows :=
      fun _ hP => hkeep hP
    unfold DispatchCall at hcase
    cases hroute : message.route with
    | note =>
      have hexec : run (kind.backend engine) env w (dispatch dispatcher message) =
          ((dispatcher.dispatchNote message).exec (kind.backend engine) env w).2 := by
        rw [run, Dispatcher.dispatch, hroute]
      rw [hexec, exec_dispatchNote]
      exact hingest _ _ (ingest_outcome hs _ _)
    | draft =>
      have hexec : run (kind.backend engine) env w (dispatch dispatcher message) =
          ((dispatcher.dispatchDraft message).exec (kind.backend engine) env w).2 := by
        rw [run, Dispatcher.dispatch, hroute]
      rw [hexec, exec_dispatchDraft]
      exact hingest _ _ (ingest_outcome hs _ _)
    | ask =>
      refine hcase hroute fun c T h => ?_
      rw [hroute] at h
      rcases h with h | ⟨_, h, -⟩
      · exact h.not_ofIngest
      · cases h
    | delete =>
      refine hcase hroute fun c T h => ?_
      rw [hroute] at h
      exact h.not_ofIngest
    | chat =>
      refine hcase hroute fun c T h => ?_
      rw [hroute] at h
      exact h.not_ofIngest
    | drafts | export_ =>
      refine hcase hroute fun c T h => ?_
      rw [hroute] at h
      exact (@QuietCall.answerCall message.communityId _ _ h).not_ofIngest
    | sources =>
      refine hcase hroute fun c T h => ?_
      rw [hroute] at h
      cases h
    | start | help | clarify | unknown =>
      refine hcase hroute fun c T h => ?_
      rw [hroute] at h
      exact absurd h id

end Requests

/-! ## Notes and raw texts -/

/-- The note is what the raw text of the row says. -/
def SourceMessage.Tells (s : SourceMessage) (n : Note) : Prop :=
  s.detectedRoute ≠ .draft ∧ ∃ parsed, parseNote s.rawText = some parsed ∧
    n.noteDate = parsed.noteDate ∧ n.noteText = parsed.body

theorem SourceMessage.Tells.of_same {s : SourceMessage} {n n' : Note} (h : s.Tells n)
    (hn : n.Same n') : s.Tells n' := by
  rw [hn]
  exact h

namespace Tables

/-- Every note is the parse of the raw text of its source row. -/
def Derived (T : Tables) : Prop :=
  ∀ n ∈ T.notes, ∀ s ∈ T.sourceMessages, s.sourceMessageId = n.sourceMessageId → s.Tells n

namespace Derived

variable {T T' : Tables}

/-- No other notes, up to their marks, and no other source rows. -/
theorem of_subset (h : T.Derived) (hn : ∀ n' ∈ T'.notes, ∃ n ∈ T.notes, n.Same n')
    (hs : ∀ s ∈ T'.sourceMessages, s ∈ T.sourceMessages) : T'.Derived := by
  intro n' hn' s hsm hid
  obtain ⟨n, hnm, hsame⟩ := hn n' hn'
  exact (h n hnm s (hs s hsm) (hid.trans hsame.sourceMessageId)).of_same hsame

theorem same_markNote (T : Tables) (state : LifecycleState) (id : String) :
    ∀ n' ∈ (T.markNote state id).notes, ∃ n ∈ T.notes, n.Same n' := by
  intro n' hn'
  obtain ⟨n, hn, rfl⟩ := mem_markNote.mp hn'
  refine ⟨n, hn, ?_⟩
  split
  · exact .withState n state
  · exact .refl n

/-- The calls that only other requests make. -/
theorem effect (h : T.Derived) {c : RepoCall} (hc : ¬ c.OfIngest) : (c.effect T).Derived := by
  have hnotes : ∀ n ∈ T.notes, ∃ m ∈ T.notes, m.Same n := fun n hn => ⟨n, hn, .refl n⟩
  cases c with
  | getOrCreateSourceMessage | saveNote | saveEventChunks => exact absurd trivial hc
  | markNote state id community => exact h.of_subset (same_markNote T state id) fun s hs => hs
  | hardDeleteSourceMessage id community =>
    exact h.of_subset (fun n hn => hnotes n (Table.mem_discard.mp hn).1)
      fun s hs => (Table.mem_discard.mp hs).1
  | _ => exact h.of_subset hnotes fun s hs => hs

theorem putSource (h : T.Derived) {s : SourceMessage}
    (hs : ∀ n ∈ T.notes, n.sourceMessageId ≠ s.sourceMessageId) : (T.putSource s).Derived := by
  intro n hn s' hs' hid
  rcases Table.mem_put.mp hs' with rfl | ⟨hs', -⟩
  · exact absurd hid.symm (hs n hn)
  · exact h n hn s' hs' hid

/-- A note that is saved says what its source row says. -/
theorem putNote (h : T.Derived) {n : Note}
    (hn : ∀ s ∈ T.sourceMessages, s.sourceMessageId = n.sourceMessageId → s.Tells n) :
    (T.putNote n).Derived := by
  intro n' hn' s hs hid
  rcases Table.mem_put.mp hn' with rfl | ⟨hn', -⟩
  · exact hn s hs hid
  · exact h n' hn' s hs hid

/-- Writes that leave the source rows alone. -/
theorem effects (h : T.Derived) {cs : List RepoCall} (hcs : ∀ c ∈ cs, ¬ c.OnSources ∧
      ∀ n, c = .saveNote n → ∀ s ∈ T.sourceMessages, s.sourceMessageId = n.sourceMessageId →
        s.Tells n) : (RepoCall.effects cs T).Derived := by
  induction cs generalizing T with
  | nil => exact h
  | cons c cs ih =>
    obtain ⟨⟨hsources, hsaved⟩, hcs⟩ := List.forall_mem_cons.mp hcs
    refine ih ?_ ?_
    · cases c with
      | getOrCreateSourceMessage | hardDeleteSourceMessage => exact absurd trivial hsources
      | saveNote n => exact h.putNote (hsaved n rfl)
      | saveEventChunks chunks =>
        exact h.of_subset (fun n hn => ⟨n, hn, .refl n⟩) fun s hs => hs
      | _ => exact h.effect id
    · rw [RepoCall.effect_sourceMessages hsources]
      exact hcs

end Derived

end Tables

section Ingests

variable {kind : StoreKind} {engine : SearchEngine} {env : Env}
  {w w' : World (kind.backend engine).State} {service : DomainService} {message : InboundMessage}

theorem FreshOutcome.derived {source : String} {now : DateTime} {r : Except Exn IngestResult}
    (h : FreshOutcome env service message source now w r w') (hw : w.rows.Derived)
    (hsource : ∀ s ∈ w.rows.sourceMessages, s.sourceMessageId = source →
      s.rawText = message.payload ∧ s.detectedRoute = message.route) : w'.rows.Derived := by
  have hcalls : ∀ {parsed : ParsedNote} {noteId chunkId : String}, message.route ≠ .draft →
      parseNote message.payload = some parsed →
      ∀ c ∈ (revision w.rows message source now parsed noteId chunkId).calls message,
        ¬ c.OnSources ∧ ∀ n, c = .saveNote n → ∀ s ∈ w.rows.sourceMessages,
          s.sourceMessageId = n.sourceMessageId → s.Tells n := by
    intro parsed noteId chunkId hroute hparse
    refine Revision.forall_mem_calls ⟨id, nofun⟩ (fun _ => ⟨id, nofun⟩) ⟨id, ?_⟩ ⟨id, nofun⟩
      fun _ => ⟨⟨id, nofun⟩, ⟨id, nofun⟩⟩
    rintro n ⟨⟩ s hs hid
    obtain ⟨htext, hdetected⟩ := hsource s hs hid
    exact ⟨hdetected ▸ hroute, parsed, htext ▸ hparse, rfl, rfl⟩
  have hprefix : ∀ {α : Type} {cs : List RepoCall} {V : α → Prop} {r : Except Exn α},
      Completes env cs w V r w' → (∀ c ∈ cs, ¬ c.OnSources ∧ ∀ n, c = .saveNote n →
        ∀ s ∈ w.rows.sourceMessages, s.sourceMessageId = n.sourceMessageId → s.Tells n) →
      w'.rows.Derived := by
    intro α cs V r hc hcs
    obtain ⟨done, rest, rfl, hrows⟩ := hc.rows
    rw [hrows]
    exact hw.effects fun c hc => hcs c (List.mem_append_left _ hc)
  cases h with
  | removed hroute hc =>
    exact hprefix hc (forall_mem_lookups ⟨id, nofun⟩ (fun _ => ⟨id, nofun⟩)
      (forall_mem_flipCalls fun _ => ⟨⟨id, nofun⟩, ⟨id, nofun⟩⟩))
  | unparsed => exact hw
  | stopped hroute hparse hids hunused hc => exact hprefix hc (hcalls hroute hparse)
  | @saved parsed noteId chunkId _ _ _ hroute hparse hids hunused hp ho =>
    have hsaved := hw.effects (@hcalls parsed noteId chunkId hroute hparse)
    rw [← hp.rows] at hsaved
    have hembedded := ho.restatused
    refine hsaved.of_subset (fun n hn => ⟨n, ?_, .refl n⟩) fun s hs => ?_
    · rwa [← hembedded.notes]
    · rwa [← hembedded.sources]

/-- An ingest keeps notes derived, whatever fails. -/
theorem IngestOutcome.derived {r : Except Exn IngestResult} (hs : Sound env w)
    (h : IngestOutcome env service message w r w') (hw : w.rows.Derived) : w'.rows.Derived := by
  rcases h.added with hrows | ⟨source, now, w₁, hunused, hnone, -, hrows, hfresh⟩
  · rwa [hrows]
  have hnotes : ∀ n ∈ w.rows.notes, n.sourceMessageId ≠ source := by
    intro n hn
    obtain ⟨s, hsm, ho⟩ := hs.linked.note_source n hn
    exact ho.source ▸ hunused s hsm
  have hadded : w₁.rows.Derived := by
    rw [hrows]
    exact hw.putSource hnotes
  refine hfresh.derived hadded fun s hsm hid => ?_
  rw [hrows] at hsm
  rcases Table.mem_put.mp hsm with rfl | ⟨hsm, -⟩
  · exact ⟨rfl, rfl⟩
  · exact absurd hid (hunused s hsm)

theorem Operation.derived (hs : Sound env w) (hw : w.rows.Derived) (o : Operation) :
    (o.run (kind.backend engine) env w).rows.Derived :=
  o.preserves hs (fun _ _ _ _ hc hT => hT.effect hc)
    (fun _ _ _ _ hout => hout.derived hs hw) hw

theorem derived_runAll (hs : Sound env w) (hw : w.rows.Derived) (ops : List Operation) :
    (runAll (kind.backend engine) env w ops).rows.Derived := by
  induction ops generalizing w with
  | nil => exact hw
  | cons o ops ih => exact ih (Operation.run_spec hs o).1 (o.derived hs hw)

end Ingests

/-! ## Exports -/

/-- What the records of an export say of the notes and chunks of a store. -/
structure RawExport.Restores (e : RawExport) (T : Tables) : Prop where
  records : ∀ s, s ∈ e.records ↔ s ∈ T.sourceMessages ∧ s.communityId = e.community
  notes : ∀ n ∈ T.notes, n.communityId = e.community →
    ∃ s ∈ e.records, s.sourceMessageId = n.sourceMessageId ∧ s.Tells n
  chunks : ∀ c ∈ T.eventChunks, c.communityId = e.community →
    ∃ s ∈ e.records, s.sourceMessageId = c.sourceMessageId ∧ s.detectedRoute ≠ .draft ∧
      ∃ parsed, parseNote s.rawText = some parsed ∧ c.noteDate = parsed.noteDate ∧
        c.chunkText = parsed.body

/-- In every run, whatever fails, the JSON export of a community is read back as its source rows,
oldest first, and every note and chunk of the community is the parse of one of them. -/
theorem export_restores (kind : StoreKind) (engine : SearchEngine) (env : Env)
    (ops : List Operation) (community requester : String) :
    let w := runAll (kind.backend engine) env (World.initial kind engine) ops
    match ((exportRaw community requester .json).exec (kind.backend engine) env w).1 with
    | .ok payload => ∃ e, readExport payload.content = some e ∧ e.community = community ∧
      e.requester = requester ∧ e.generatedAt = payload.generatedAt ∧
      e.records = w.rows.listSourceMessages community none ∧ e.Restores w.rows
    | .error _ => True := by
  intro w
  have hs : Sound env w := sound_run env ops
  have hderived : w.rows.Derived := by
    refine derived_runAll (sound_initial kind engine env) ?_ ops
    cases kind <;> rintro _ ⟨⟩
  obtain ⟨-, -, hend⟩ := Proc.exec_of_wp hs (wp_exportRaw (P := QuietCall) community requester .json
    fun _ _ h => h)
  split
  · next payload hok =>
    rw [hok] at hend
    obtain ⟨-, hcontent, -⟩ := hend
    have hrecords : ∀ s, s ∈ w.rows.listSourceMessages community none ↔
        s ∈ w.rows.sourceMessages ∧ s.communityId = community := fun s => by
      simp [Tables.listSourceMessages, takeLimit]
    have hnotes : ∀ n ∈ w.rows.notes, n.communityId = community →
        ∃ s ∈ w.rows.listSourceMessages community none,
          s.sourceMessageId = n.sourceMessageId ∧ s.Tells n := by
      intro n hn hcommunity
      obtain ⟨s, hsm, ho⟩ := hs.linked.note_source n hn
      exact ⟨s, (hrecords s).mpr ⟨hsm, ho.community.trans hcommunity⟩, ho.source,
        hderived n hn s hsm ho.source⟩
    refine ⟨⟨community, requester, payload.generatedAt, w.rows.listSourceMessages community none⟩,
      ?_, rfl, rfl, rfl, rfl, hrecords, hnotes, fun c hc hcommunity => ?_⟩
    · rw [hcontent]
      exact readExport_serializeJson _ community requester payload.generatedAt
    · obtain ⟨n, hn, ho⟩ := hs.linked.chunk_note c hc
      obtain ⟨s, hsm, hid, hdraft, parsed, hparse, hdate, htext⟩ :=
        hnotes n hn (ho.community.trans hcommunity)
      exact ⟨s, hsm, hid.trans ho.source, hdraft, parsed, hparse, ho.noteDate ▸ hdate,
        ho.text ▸ htext⟩
  · trivial

end DiaryMemory
