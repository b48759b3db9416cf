import DiaryMemory.Operations

/-!
# Settled rows

Without failures of the store, a request leaves its rows `Settled` : an external message
has at most one active note in a community, every note with a text has its chunk, and a
chunk is in the lifecycle state of its note. The revision a note replaces is then the only
active one, and its chunk is the one the lookup finds (`Settled.flips_together`), so that
flipping both keeps the rows settled.

An embedding changes no note, and of a chunk only its status (`Tables.Restatused`).
-/

namespace DiaryMemory

/-! ## Statuses -/

/-- The same notes, and the same chunks up to their embedding status. -/
structure Tables.Restatused (T T' : Tables) : Prop where
  sources : T'.sourceMessages = T.sourceMessages
  notes : T'.notes = T.notes
  chunks : ∃ f : EventChunk → EmbeddingStatus,
    T'.eventChunks.rows = T.eventChunks.rows.map fun c => c.withStatus (f c)

/-- A call that stores records, sets statuses, or reads. -/
def RepoCall.OnEmbedding : RepoCall → Prop
  | .saveEmbeddingRecords _ | .setChunkEmbeddingStatus .. | .saveIndexingDeadLetter _
  | .listFailedEventChunks .. => True
  | _ => False

namespace Tables.Restatused

variable {T T' T'' : Tables}

theorem of_chunks (hsources : T'.sourceMessages = T.sourceMessages) (hnotes : T'.notes = T.notes)
    (hchunks : T'.eventChunks = T.eventChunks) : T.Restatused T' where
  sources := hsources
  notes := hnotes
  chunks := ⟨EventChunk.embeddingStatus, by rw [hchunks]; exact (List.map_id _).symm⟩

theorem refl (T : Tables) : T.Restatused T := .of_chunks rfl rfl rfl

theorem trans (h : T.Restatused T') (h' : T'.Restatused T'') : T.Restatused T'' where
  sources := h'.sources.trans h.sources
  notes := h'.notes.trans h.notes
  chunks := by
    obtain ⟨f, hf⟩ := h.chunks
    obtain ⟨g, hg⟩ := h'.chunks
    refine ⟨fun c => g (c.withStatus (f c)), ?_⟩
    rw [hg, hf, List.map_map]
    rfl

theorem setStatus (T : Tables) (id : String) (status : EmbeddingStatus) :
    T.Restatused (T.setStatus id status) where
  sources := rfl
  notes := rfl
  chunks := by
    refine ⟨fun c => if c.chunkId = id then status else c.embeddingStatus, ?_⟩
    rw [Tables.setStatus, Table.rows_adjust (f := EventChunk.withStatus status) fun _ => rfl]
    refine List.map_congr_left fun c _ => ?_
    dsimp only
    split <;> rfl

theorem effect {c : RepoCall} (h : c.OnEmbedding) (T : Tables) : T.Restatused (c.effect T) := by
  cases c with
  | setChunkEmbeddingStatus id status => exact .setStatus T id status
  | saveEmbeddingRecords | saveIndexingDeadLetter | listFailedEventChunks =>
    exact .of_chunks rfl rfl rfl
  | _ => exact absurd h id

theorem effects {cs : List RepoCall} (h : ∀ c ∈ cs, c.OnEmbedding) (T : Tables) :
    T.Restatused (RepoCall.effects cs T) := by
  induction cs generalizing T with
  | nil => exact .refl T
  | cons c cs ih =>
    exact (effect (h c List.mem_cons_self) T).trans
      (ih (fun d hd => h d (List.mem_cons_of_mem _ hd)) _)

/-- A chunk afterwards is one from before, with a status. -/
theorem mem (h : T.Restatused T') {c' : EventChunk} (hc : c' ∈ T'.eventChunks) :
    ∃ c ∈ T.eventChunks, c' = c.withStatus c'.embeddingStatus := by
  obtain ⟨f, hf⟩ := h.chunks
  rw [← Table.mem_rows, hf] at hc
  obtain ⟨c, hcm, rfl⟩ := List.mem_map.mp hc
  exact ⟨c, hcm, rfl⟩

theorem mem_of (h : T.Restatused T') {c : EventChunk} (hc : c ∈ T.eventChunks) :
    ∃ status, c.withStatus status ∈ T'.eventChunks := by
  obtain ⟨f, hf⟩ := h.chunks
  refine ⟨f c, ?_⟩
  rw [← Table.mem_rows, hf]
  exact List.mem_map_of_mem hc

end Tables.Restatused

section Embedding

variable {kind : StoreKind} {engine : SearchEngine} {env : Env}
  {w w' : World (kind.backend engine).State}

theorem Completes.restatused {cs : List RepoCall} {α : Type} {V : α → Prop} {r : Except Exn α}
    (h : Completes env cs w V r w') (hcs : ∀ c ∈ cs, c.OnEmbedding) :
    w.rows.Restatused w'.rows := by
  obtain ⟨done, rest, rfl, hrows⟩ := h.rows
  rw [hrows]
  exact .effects (fun c hc => hcs c (List.mem_append_left _ hc)) _

theorem EmbedOutcome.restatused {client : EmbeddingClient} {chunk : EventChunk}
    {answer : Except Exn (List Vec)} {r : Except Exn Unit}
    (h : EmbedOutcome env client chunk answer w r w') :
    w.rows.Restatused w'.rows := by
  cases h with
  | mismatch hanswer hlength hl =>
    rw [hl.rows]
    exact .refl _
  | stored hanswer hr hm hc => exact hc.restatused (by simp [RepoCall.OnEmbedding])
  | unmarked hanswer hc => exact hc.restatused (by simp [RepoCall.OnEmbedding])
  | failed hanswer hd hp hdead =>
    have hmark : w.rows.Restatused (RepoCall.effects [.setChunkEmbeddingStatus chunk.chunkId
        .failed] w.rows) := .effects (by simp [RepoCall.OnEmbedding]) w.rows
    rw [← hp.rows] at hmark
    rcases hdead with hdead | ⟨e, hdead⟩
    · rw [hdead.rows]
      exact hmark.trans (.of_chunks rfl rfl rfl)
    · rwa [hdead.rows]

theorem EmbedNewOutcome.restatused {service : DomainService} {chunks : List EventChunk}
    {r : Except Exn Unit} (h : EmbedNewOutcome env service chunks w r w') :
    w.rows.Restatused w'.rows := by
  cases h with
  | skipped h => exact .refl _
  | asked hclient hchunks ht ho => exact ht.rows ▸ ho.restatused

/-- A retry changes no note, and of a chunk only its status. -/
theorem Continues.restatused {client : Option EmbeddingClient} {community : String}
    {limit : Option Int} {T₀ : Tables}
    (h : Continues (RetryCall env client community limit T₀) w w') :
    w.rows.Restatused w'.rows := by
  obtain ⟨es, -, ht⟩ := h
  refine (ht.keeps (I := w.rows.Restatused) (fun c T _ _ _ hc hT => hT.trans (.effect ?_ T))
    (.refl _)).1
  cases c <;> trivial

end Embedding

/-! ## Settled rows -/

namespace Tables

/-- One active revision of each message, and a chunk in step with every note. -/
structure Settled (T : Tables) : Prop where
  one_active : ∀ chat msg community, ∀ n ∈ T.activeNotesFor chat msg community,
    ∀ n' ∈ T.activeNotesFor chat msg community, n = n'
  has_chunk : ∀ n ∈ T.notes, n.noteText ≠ "" → ∃ c ∈ T.eventChunks, c.noteId = n.noteId
  in_step : ∀ n ∈ T.notes, ∀ c ∈ T.eventChunks, c.noteId = n.noteId →
    c.lifecycleState = n.lifecycleState

theorem settled_empty : ({} : Tables).Settled where
  one_active _ _ _ _ hn := absurd (mem_activeNotesFor.mp hn).1 Table.not_mem_empty
  has_chunk _ h := absurd h Table.not_mem_empty
  in_step _ h := absurd h Table.not_mem_empty

variable {T T' : Tables}

/-- The chunk of an active note is the one the lookup finds. -/
theorem Linked.getActiveChunk (hT : T.Linked) {n : Note} {c : EventChunk} (hn : n ∈ T.notes)
    (hc : c ∈ T.eventChunks) (hid : c.noteId = n.noteId) (ha : c.lifecycleState = .active) :
    T.getActiveChunkForNote n.noteId n.communityId = some c := by
  have hmem : c ∈ T.activeChunksFor n.noteId n.communityId :=
    mem_activeChunksFor.mpr ⟨hc, hid, (hT.chunkOf hn hc hid.symm).community.symm, ha⟩
  cases h : T.getActiveChunkForNote n.noteId n.communityId with
  | none =>
    rw [getActiveChunk_eq_none.mp h] at hmem
    cases hmem
  | some d =>
    obtain ⟨hd, hdid, -, -⟩ := mem_activeChunksFor.mp (mem_of_getActiveChunk h)
    rw [hT.chunk_unique d hd c hc (hdid.trans hid.symm)]

/-- The active note the lookup finds and its chunk are flipped together. -/
theorem Settled.flips_together (h : T.Settled) (hT : T.Linked) {chat msg community : String}
    {note : Option Note} {chunk : Option EventChunk}
    (hnote : note = T.getActiveNoteForExternalMessage chat msg community)
    (hchunk : chunk = T.activeChunkOf community note) {c : EventChunk} (hc : c ∈ T.eventChunks) :
    chunk.map EventChunk.chunkId = some c.chunkId ↔ note.map Note.noteId = some c.noteId := by
  constructor
  · intro he
    obtain ⟨d, hd, hid⟩ := Option.map_eq_some_iff.mp he
    rw [hchunk] at hd
    obtain ⟨n, hn, hget⟩ := Option.bind_eq_some_iff.mp hd
    obtain ⟨hdm, hdn, -, -⟩ := mem_activeChunksFor.mp (mem_of_getActiveChunk hget)
    rw [hn, ← Table.eq_of_key hdm hc hid, hdn]
    rfl
  · intro he
    obtain ⟨n, hn, hid⟩ := Option.map_eq_some_iff.mp he
    obtain ⟨hnm, hnc, hna, -⟩ := mem_activeNotesFor.mp (mem_of_getActiveNote (hnote ▸ hn))
    have hca : c.lifecycleState = .active := (h.in_step n hnm c hc hid.symm).trans hna
    rw [hchunk, hn, activeChunkOf, Option.bind_some, ← hnc,
      hT.getActiveChunk hnm hc hid.symm hca]
    rfl

theorem sourceIsFor_putSource {s : SourceMessage} {chat msg id : String}
    (h : id ≠ s.sourceMessageId) : (T.putSource s).sourceIsFor chat msg id = T.sourceIsFor chat msg id := by
  rw [sourceIsFor, putSource, Table.find?_put, if_neg (Ne.symm h), sourceIsFor]

theorem Settled.putSource (h : T.Settled) (hT : T.Linked) {s : SourceMessage}
    (hs : ∀ x ∈ T.sourceMessages, x.sourceMessageId ≠ s.sourceMessageId) :
    (T.putSource s).Settled := by
  have hold : ∀ {chat msg community n}, n ∈ (T.putSource s).activeNotesFor chat msg community →
      n ∈ T.activeNotesFor chat msg community := by
    intro chat msg community n hn
    obtain ⟨hnm, hnc, hna, hfor⟩ := mem_activeNotesFor.mp hn
    obtain ⟨x, hx, ho⟩ := hT.note_source n hnm
    rw [sourceIsFor_putSource (ho.source ▸ hs x hx)] at hfor
    exact mem_activeNotesFor.mpr ⟨hnm, hnc, hna, hfor⟩
  exact ⟨fun chat msg community n hn n' hn' =>
    h.one_active chat msg community n (hold hn) n' (hold hn'), h.has_chunk, h.in_step⟩

theorem Restatused.activeNotesFor (h : T.Restatused T') (chat msg community : String) :
    T'.activeNotesFor chat msg community = T.activeNotesFor chat msg community := by
  unfold Tables.activeNotesFor sourceIsFor
  rw [h.notes, h.sources]

theorem Settled.restatused (h : T.Settled) (hr : T.Restatused T') : T'.Settled where
  one_active chat msg community := by
    rw [hr.activeNotesFor]
    exact h.one_active chat msg community
  has_chunk n hn htext := by
    rw [hr.notes] at hn
    obtain ⟨c, hc, hid⟩ := h.has_chunk n hn htext
    obtain ⟨status, hc'⟩ := hr.mem_of hc
    exact ⟨_, hc', hid⟩
  in_step n hn c' hc' hid := by
    rw [hr.notes] at hn
    obtain ⟨c, hc, he⟩ := hr.mem hc'
    rw [he] at hid ⊢
    exact h.in_step n hn c hc hid

theorem Settled.removeSource (h : T.Settled) (hT : T.Linked) (id : String) :
    (T.removeSource id).Settled := by
  have hnotes : ∀ {n}, n ∈ (T.removeSource id).notes ↔ n ∈ T.notes ∧ n.sourceMessageId ≠ id := by
    intro n
    exact Table.mem_discard.trans (and_congr_right fun _ => decide_eq_false_iff_not)
  have hchunks : ∀ {c}, c ∈ (T.removeSource id).eventChunks ↔
      c ∈ T.eventChunks ∧ c.sourceMessageId ≠ id := by
    intro c
    exact Table.mem_discard.trans (and_congr_right fun _ => decide_eq_false_iff_not)
  have hold : ∀ {chat msg community n}, n ∈ (T.removeSource id).activeNotesFor chat msg community →
      n ∈ T.activeNotesFor chat msg community := by
    intro chat msg community n hn
    obtain ⟨hnm, hnc, hna, hfor⟩ := mem_activeNotesFor.mp hn
    obtain ⟨s, hs, hrest⟩ := sourceIsFor_iff.mp hfor
    exact mem_activeNotesFor.mpr ⟨(hnotes.mp hnm).1, hnc, hna,
      sourceIsFor_iff.mpr ⟨s, (Table.mem_discard.mp hs).1, hrest⟩⟩
  refine ⟨fun chat msg community n hn n' hn' =>
    h.one_active chat msg community n (hold hn) n' (hold hn'), fun n hn htext => ?_,
    fun n hn c hc => h.in_step n (hnotes.mp hn).1 c (hchunks.mp hc).1⟩
  obtain ⟨hnm, hne⟩ := hnotes.mp hn
  obtain ⟨c, hc, hid⟩ := h.has_chunk n hnm htext
  exact ⟨c, hchunks.mpr ⟨hc, (hT.chunkOf hnm hc hid.symm).source ▸ hne⟩, hid⟩

theorem mem_activeNotesFor_flip {state : LifecycleState} {note : Option Note}
    {chunk : Option EventChunk} (hstate : state ≠ .active) {chat msg community : String} {x : Note} :
    x ∈ (T.flip state note chunk).activeNotesFor chat msg community ↔
      x ∈ T.activeNotesFor chat msg community ∧ note.map Note.noteId ≠ some x.noteId := by
  rw [mem_activeNotesFor, mem_activeNotesFor, mem_flip_notes, sourceIsFor, flip_sourceMessages,
    ← sourceIsFor]
  constructor
  · rintro ⟨⟨n, hn, rfl⟩, hc, ha, hfor⟩
    by_cases he : note.map Note.noteId = some n.noteId
    · rw [if_pos he] at ha
      exact absurd ha hstate
    · rw [if_neg he] at hc ha hfor ⊢
      exact ⟨⟨hn, hc, ha, hfor⟩, he⟩
  · rintro ⟨⟨hn, hrest⟩, hne⟩
    exact ⟨⟨x, hn, (if_neg hne).symm⟩, hrest⟩

/-- Flipping the active revision keeps the rows settled. -/
theorem Settled.flip (h : T.Settled) (hT : T.Linked) {chat msg community : String}
    {note : Option Note} {chunk : Option EventChunk}
    (hnote : note = T.getActiveNoteForExternalMessage chat msg community)
    (hchunk : chunk = T.activeChunkOf community note) {state : LifecycleState}
    (hstate : state ≠ .active) : (T.flip state note chunk).Settled := by
  refine ⟨fun chat' msg' community' n hn n' hn' => ?_, fun n hn htext => ?_, fun n hn c hc hid => ?_⟩
  · exact h.one_active _ _ _ n ((mem_activeNotesFor_flip hstate).mp hn).1 n'
      ((mem_activeNotesFor_flip hstate).mp hn').1
  · obtain ⟨m, hm, rfl⟩ := mem_flip_notes.mp hn
    have hmid : (if note.map Note.noteId = some m.noteId then m.withState state else m).noteId =
        m.noteId := by split <;> rfl
    have hmtext : m.noteText ≠ "" := by
      split at htext <;> exact htext
    obtain ⟨c, hc, hid⟩ := h.has_chunk m hm hmtext
    refine ⟨_, mem_flip_chunks.mpr ⟨c, hc, rfl⟩, ?_⟩
    rw [hmid, ← hid]
    split <;> rfl
  · obtain ⟨m, hm, rfl⟩ := mem_flip_notes.mp hn
    obtain ⟨d, hd, rfl⟩ := mem_flip_chunks.mp hc
    have hdm : d.noteId = m.noteId := by
      split at hid <;> split at hid <;> exact hid
    have htogether := h.flips_together hT hnote hchunk hd
    rw [hdm] at htogether
    by_cases he : note.map Note.noteId = some m.noteId
    · rw [if_pos he, if_pos (htogether.mpr he)]
      rfl
    · rw [if_neg he, if_neg (mt htogether.mp he)]
      exact h.in_step m hm d hd hdm

end Tables

section Saved

variable {T : Tables} {message : InboundMessage} {source : String} {now : DateTime}
  {parsed : ParsedNote} {noteId chunkId : String} {v : Revision}

theorem Revision.save_sourceMessages (v : Revision) (T : Tables) :
    (v.save T).sourceMessages = T.sourceMessages := by
  rw [save, Tables.flip_sourceMessages]
  rfl

/-- The active notes after a revision : the new one, and those it does not replace. -/
theorem Revision.mem_activeNotesFor_save
    (hv : v = revision T message source now parsed noteId chunkId) (hu : T.Unused noteId chunkId)
    {chat msg community : String} {x : Note}
    (hx : x ∈ (v.save T).activeNotesFor chat msg community) :
    x = v.note ∧ community = message.communityId ∧ T.sourceIsFor chat msg source = true ∨
      x ∈ T.activeNotesFor chat msg community ∧ v.priorNote.map Note.noteId ≠ some x.noteId := by
  have hmem := hx
  rw [Tables.mem_activeNotesFor, mem_save_notes hv hu, Tables.sourceIsFor, save_sourceMessages,
    ← Tables.sourceIsFor] at hmem
  obtain ⟨rfl | ⟨n, hn, rfl⟩, hc, ha, hfor⟩ := hmem
  · rw [hv] at hc hfor
    exact .inl ⟨rfl, hc.symm, hfor⟩
  · by_cases he : v.priorNote.map Note.noteId = some n.noteId
    · rw [if_pos he] at ha
      cases ha
    · rw [if_neg he] at hc ha hfor ⊢
      exact .inr ⟨Tables.mem_activeNotesFor.mpr ⟨hn, hc, ha, hfor⟩, he⟩

/-- The note a revision replaces is the only active one of its message. -/
theorem Tables.Settled.prior (h : T.Settled)
    (hv : v = revision T message source now parsed noteId chunkId) {n : Note}
    (hn : n ∈ T.activeNotesFor message.externalChatId message.externalMessageId
      message.communityId) : v.priorNote = some n := by
  have hprior : v.priorNote = T.getActiveNoteForExternalMessage message.externalChatId
      message.externalMessageId message.communityId := by rw [hv]; rfl
  rw [hprior]
  cases hget : T.getActiveNoteForExternalMessage message.externalChatId message.externalMessageId
    message.communityId with
  | none =>
    rw [getActiveNote_eq_none.mp hget] at hn
    cases hn
  | some m => rw [h.one_active _ _ _ m (mem_of_getActiveNote hget) n hn]

/-- A new revision keeps the rows settled. -/
theorem Tables.Settled.save (h : T.Settled) (hT : T.Linked)
    (hv : v = revision T message source now parsed noteId chunkId) (hu : T.Unused noteId chunkId)
    (hsource : ∀ chat msg, T.sourceIsFor chat msg source = true →
      chat = message.externalChatId ∧ msg = message.externalMessageId) : (v.save T).Settled := by
  have hnote : v.note.noteId = noteId ∧ v.note.noteText = parsed.body ∧
      v.note.lifecycleState = .active := by
    rw [hv]
    exact ⟨rfl, rfl, rfl⟩
  have hchunk : ∀ c ∈ v.chunks, c.noteId = noteId ∧ c.lifecycleState = .active := by
    intro c hc
    obtain ⟨-, rfl⟩ := (Revision.mem_chunks hv).mp hc
    exact ⟨hnote.1, rfl⟩
  refine ⟨fun chat msg community x hx y hy => ?_, fun n hn htext => ?_, fun n hn c hc hid => ?_⟩
  · have hmixed : ∀ z ∈ T.activeNotesFor chat msg community,
        v.priorNote.map Note.noteId ≠ some z.noteId → community = message.communityId →
        T.sourceIsFor chat msg source = true → False := by
      intro z hz hne hcommunity hfor
      obtain ⟨rfl, rfl⟩ := hsource chat msg hfor
      rw [hcommunity] at hz
      exact hne (by rw [h.prior hv hz]; rfl)
    rcases Revision.mem_activeNotesFor_save hv hu hx with ⟨rfl, hcx, hfx⟩ | ⟨hx, hnx⟩ <;>
      rcases Revision.mem_activeNotesFor_save hv hu hy with ⟨rfl, hcy, hfy⟩ | ⟨hy, hny⟩
    · rfl
    · exact absurd hfx fun hfor => hmixed y hy hny hcx hfor
    · exact absurd hfy fun hfor => hmixed x hx hnx hcy hfor
    · exact h.one_active chat msg community x hx y hy
  · rcases (Revision.mem_save_notes hv hu).mp hn with rfl | ⟨m, hm, rfl⟩
    · exact ⟨_, (Revision.mem_save_chunks hv hu).mpr (.inl ((Revision.mem_chunks hv).mpr
        ⟨hnote.2.1 ▸ htext, rfl⟩)), rfl⟩
    · have hmid : (if v.priorNote.map Note.noteId = some m.noteId then m.withState .superseded
          else m).noteId = m.noteId := by split <;> rfl
      have hmtext : m.noteText ≠ "" := by
        split at htext <;> exact htext
      obtain ⟨c, hc, hid⟩ := h.has_chunk m hm hmtext
      refine ⟨_, (Revision.mem_save_chunks hv hu).mpr (.inr ⟨c, hc, rfl⟩), ?_⟩
      rw [hmid, ← hid]
      split <;> rfl
  · rcases (Revision.mem_save_notes hv hu).mp hn with rfl | ⟨m, hm, rfl⟩ <;>
      rcases (Revision.mem_save_chunks hv hu).mp hc with hc | ⟨d, hd, rfl⟩
    · rw [(hchunk c hc).2, hnote.2.2]
    · obtain ⟨m, hm, ho⟩ := hT.chunk_note d hd
      have hdn : d.noteId = noteId := by
        rw [hnote.1] at hid
        split at hid <;> exact hid
      exact absurd (ho.note.trans hdn) (hu.1 m hm)
    · rw [(hchunk c hc).1] at hid
      have hmn : m.noteId = noteId := by
        split at hid <;> exact hid.symm
      exact absurd hmn (hu.1 m hm)
    · have hdm : d.noteId = m.noteId := by
        split at hid <;> split at hid <;> exact hid
      have hchunk' : v.priorChunk = T.activeChunkOf message.communityId v.priorNote := by
        rw [hv]
        rfl
      have htogether := h.flips_together hT (congrArg Revision.priorNote hv) hchunk' hd
      rw [hdm] at htogether
      by_cases he : v.priorNote.map Note.noteId = some m.noteId
      · rw [if_pos he, if_pos (htogether.mpr he)]
        rfl
      · rw [if_neg he, if_neg (mt htogether.mp he)]
        exact h.in_step m hm d hd hdm

end Saved

/-! ## Requests without failures -/

section Reliable

variable {kind : StoreKind} {engine : SearchEngine} {env : Env}
  {w w' : World (kind.backend engine).State}

/-- Calls that begin with a lookup of the active note can only be refused there. -/
theorem Completes.unchanged {α : Type} {V : α → Prop} {chat msg community : String}
    {cs : List RepoCall} {e : Exn} (henv : env.Reliable)
    (hcs : ∀ c ∈ .getActiveNoteForExternalMessage chat msg community :: cs, ∀ T,
      c.Refused kind T → community = "")
    (h : Completes env (.getActiveNoteForExternalMessage chat msg community :: cs) w V (.error e) w') :
    w'.rows = w.rows := by
  obtain ⟨_, w₁, -, hl, hr⟩ | ⟨w₁, _, w₂, -, hfirst, hrest⟩ := h.uncons
  · exact hr.rows.trans hl.rows
  · obtain ⟨done, c, rest, _, rfl, -, hr⟩ := hrest
    exact absurd (hcs c (by simp) _ (hr.refused henv)) hfirst.accepted

/-- The calls of a removal are refused only without a community. -/
theorem refused_removalCalls {T₀ : Tables} {chat msg community : String} {note : Option Note} :
    ∀ c ∈ removalCalls T₀ chat msg community note, ∀ T, c.Refused kind T → community = "" :=
  forall_mem_lookups (fun _ => id) (fun _ _ => id) (forall_mem_flipCalls fun _ =>
    ⟨fun _ => False.elim, fun _ => False.elim⟩)

theorem refused_calls {message : InboundMessage} (v : Revision) :
    ∀ c ∈ v.calls message, ∀ T, c.Refused kind T → message.communityId = "" :=
  v.forall_mem_calls (fun _ => id) (fun _ _ => id) (fun _ => False.elim) (fun _ => False.elim)
    fun _ => ⟨fun _ => False.elim, fun _ => False.elim⟩

/-- A removal flips the active revision, or does nothing. -/
theorem Completes.removed {α : Type} {V : α → Prop} {chat msg community : String} {r : Except Exn α}
    (henv : env.Reliable)
    (h : Completes env (removalCalls w.rows chat msg community
      (w.rows.getActiveNoteForExternalMessage chat msg community)) w V r w') :
    w'.rows = w.rows ∨ w'.rows = w.rows.flip .tombstoned
      (w.rows.getActiveNoteForExternalMessage chat msg community)
      (w.rows.activeChunkOf community
        (w.rows.getActiveNoteForExternalMessage chat msg community)) := by
  cases r with
  | ok a => exact .inr (h.2.rows.trans (effects_removalCalls ..))
  | error e => exact .inl (h.unchanged henv refused_removalCalls)

/-- A revision is saved, or nothing is. -/
theorem Completes.revised {α : Type} {V : α → Prop} {message : InboundMessage} {v : Revision}
    {r : Except Exn α} (henv : env.Reliable) (h : Completes env (v.calls message) w V r w') :
    w'.rows = w.rows ∨ w'.rows = v.save w.rows := by
  cases r with
  | ok a => exact .inr (h.2.rows.trans (Revision.effects_calls ..))
  | error e => exact .inl (h.unchanged henv (refused_calls v))

/-- Without failures, handling a new message removes the active revision, saves a new one
and embeds it, or leaves the rows. -/
theorem FreshOutcome.reliable {service : DomainService} {message : InboundMessage}
    {source : String} {now : DateTime} {r : Except Exn IngestResult} (henv : env.Reliable)
    (h : FreshOutcome env service message source now w r w') :
    w'.rows = w.rows ∨
    w'.rows = w.rows.flip .tombstoned
      (w.rows.getActiveNoteForExternalMessage message.externalChatId message.externalMessageId
        message.communityId)
      (w.rows.activeChunkOf message.communityId (w.rows.getActiveNoteForExternalMessage
        message.externalChatId message.externalMessageId message.communityId)) ∨
    ∃ parsed noteId chunkId, NewIds env w noteId chunkId ∧ w.rows.Unused noteId chunkId ∧
      ((revision w.rows message source now parsed noteId chunkId).save w.rows).Restatused
        w'.rows := by
  cases h with
  | removed hroute hc => exact (hc.removed henv).imp_right .inl
  | unparsed hroute hparse => exact .inl rfl
  | @stopped parsed noteId chunkId e w' hroute hparse hids hunused hc =>
    rcases hc.revised henv with hrows | hrows
    · exact .inl hrows
    · refine .inr (.inr ⟨parsed, noteId, chunkId, hids, hunused, ?_⟩)
      rw [hrows]
      exact .refl _
  | @saved parsed noteId chunkId r w₁ w' hroute hparse hids hunused hp ho =>
    refine .inr (.inr ⟨parsed, noteId, chunkId, hids, hunused, ?_⟩)
    have hrows := hp.rows
    rw [Revision.effects_calls] at hrows
    rw [← hrows]
    exact ho.restatused

theorem RepoCall.effects_of_reads {cs : List RepoCall} (h : ∀ c ∈ cs, ∀ T : Tables, c.effect T = T)
    (T : Tables) : RepoCall.effects cs T = T := by
  induction cs with
  | nil => rfl
  | cons c cs ih =>
    rw [effects, List.foldl_cons, h c List.mem_cons_self]
    exact ih fun d hd => h d (List.mem_cons_of_mem _ hd)

/-- An ingest leaves the rows, or adds a source row and handles the message. -/
theorem IngestOutcome.added {service : DomainService} {message : InboundMessage}
    {r : Except Exn IngestResult} (h : IngestOutcome env service message w r w') :
    w'.rows = w.rows ∨ ∃ (source : String) (now : DateTime)
      (w₁ : World (kind.backend engine).State),
      (∀ x ∈ w.rows.sourceMessages, x.sourceMessageId ≠ source) ∧
      w.rows.sourceForKey message.messageKey = none ∧ w.draws ≤ w₁.draws ∧
      w₁.rows = w.rows.putSource (DomainService.sourceRow message source now) ∧
      FreshOutcome env service message source now w₁ r w' := by
  cases h with
  | refused hl hr => exact .inl (hr.rows.trans hl.rows)
  | @replayed s existing r w₁ w' hexisting hkey hp hc =>
    have hrows : w₁.rows = w.rows := by
      rw [hp.rows, RepoCall.effects, List.foldl_cons, List.foldl_nil, RepoCall.effect, hkey, hexisting]
    obtain ⟨done, rest, heq, hrows'⟩ := hc.rows
    refine .inl (hrows'.trans ((RepoCall.effects_of_reads (fun c hcm => ?_) _).trans hrows))
    exact rebuildCalls_read _ _ c (heq ▸ List.mem_append_left _ hcm)
  | @fresh source now r w₁ w' hnone hunused hp ho =>
    exact .inr ⟨source, now, w₁, hunused, hnone, hp.draws, hp.rows_added hnone, ho⟩

theorem sourceIsFor_sourceRow {T : Tables} {message : InboundMessage} {source : String}
    {now : DateTime} {chat msg : String} (h : (T.putSource (DomainService.sourceRow message source
      now)).sourceIsFor chat msg source = true) :
    chat = message.externalChatId ∧ msg = message.externalMessageId := by
  rw [Tables.sourceIsFor, Tables.putSource, Table.find?_put,
    if_pos (show (DomainService.sourceRow message source now).sourceMessageId = source from rfl)] at h
  obtain ⟨hchat, hmsg⟩ := of_decide_eq_true h
  exact ⟨hchat.symm, hmsg.symm⟩

/-- A request on settled rows leaves settled rows. -/
theorem Operation.settled (henv : env.Reliable) (hs : Sound env w) (h : w.rows.Settled)
    (o : Operation) (ho : o.OnContent) : (o.run (kind.backend engine) env w).rows.Settled := by
  cases o with
  | ingest service message =>
    rcases (ingest_outcome hs service message).added with
      hrows | ⟨source, now, w₁, hunused, hnone, -, hrows, hfresh⟩
    · rwa [← hrows] at h
    have hT := hs.linked.putSource (s := DomainService.sourceRow message source now) hunused
      (Tables.sourceForKey_eq_none.mp hnone)
    have h₁ := h.putSource hs.linked (s := DomainService.sourceRow message source now) hunused
    rw [← hrows] at hT h₁
    rcases hfresh.reliable henv with hsame | hflip | ⟨parsed, noteId, chunkId, -, hu, hsave⟩
    · rwa [← hsame] at h₁
    · exact hflip ▸ h₁.flip hT rfl rfl nofun
    · refine (h₁.save hT rfl hu fun chat msg hfor => ?_).restatused hsave
      rw [hrows] at hfor
      exact sourceIsFor_sourceRow hfor
  | delete chat target community =>
    rcases (delete_outcome hs chat target community).removed henv with hsame | hflip
    · rwa [← hsame] at h
    · exact hflip ▸ h.flip hs.linked rfl rfl nofun
  | retry service community limit =>
    exact h.restatused (Continues.restatused (run_spec hs (.retry service community limit)).2)
  | hardDelete id community =>
    have hout := hardDelete_outcome hs id community
    unfold HardDeleteEnd at hout
    split at hout
    · next hr => exact hout.rows ▸ h.removeSource hs.linked id
    · next hr => exact hout.rows ▸ h
  | _ => exact absurd ho id

theorem settled_run (henv : env.Reliable) {ops : List Operation} (hops : ∀ o ∈ ops, o.OnContent) :
    (runAll (kind.backend engine) env (World.initial kind engine) ops).rows.Settled := by
  refine runAll_induction (I := fun w => w.rows.Settled) (sound_initial kind engine env) ?_
    fun o ho v hv hI => o.settled henv hv hI (hops o ho)
  cases kind <;> exact Tables.settled_empty

/-- What the rows of notes and chunks agree on : one active note of a message in a
community, one chunk of a note with a text and none of another, and what is handed down
from the source to the note and from the note to the chunk. -/
structure Tables.Coherent (T : Tables) : Prop where
  one_active : ∀ chat msg community, (T.activeNotesFor chat msg community).length ≤ 1
  chunk_count : ∀ n ∈ T.notes, (T.eventChunks.rows.filter fun c => c.noteId = n.noteId).length =
    if n.noteText = "" then 0 else 1
  chunk_note : ∀ c ∈ T.eventChunks, ∃ n ∈ T.notes, n.noteId = c.noteId ∧
    n.lifecycleState = c.lifecycleState ∧ n.communityId = c.communityId ∧
    n.authorUserId = c.authorUserId ∧ n.noteDate = c.noteDate ∧ n.subjectId = c.subjectId ∧
    n.sourceMessageId = c.sourceMessageId
  note_source : ∀ n ∈ T.notes, ∃ s ∈ T.sourceMessages, s.sourceMessageId = n.sourceMessageId ∧
    s.communityId = n.communityId ∧ s.authorUserId = n.authorUserId

theorem length_le_one_of_nodup {α : Type} {l : List α} (h : l.Nodup)
    (hall : ∀ a ∈ l, ∀ b ∈ l, a = b) : l.length ≤ 1 := by
  match l, h with
  | [], _ => exact Nat.zero_le 1
  | [a], _ => exact le_rfl
  | a :: b :: l, h =>
    have hab := hall a (by simp) b (by simp)
    simp [hab] at h

theorem Tables.Settled.coherent {T : Tables} (h : T.Settled) (hT : T.Linked) : T.Coherent where
  one_active chat msg community :=
    length_le_one_of_nodup (T.notes.rows_nodup.filter _) (h.one_active chat msg community)
  chunk_count n hn := by
    have hone : (T.eventChunks.rows.filter fun c => c.noteId = n.noteId).length ≤ 1 :=
      length_le_one_of_nodup (T.eventChunks.rows_nodup.filter _) fun c hc d hd => by
        simp only [List.mem_filter, decide_eq_true_eq] at hc hd
        exact hT.chunk_unique c hc.1 d hd.1 (hc.2.trans hd.2.symm)
    split
    · next htext =>
      rw [List.length_eq_zero_iff, List.filter_eq_nil_iff]
      intro c hc hid
      exact (hT.chunkOf hn hc (of_decide_eq_true hid).symm).nonempty htext
    · next htext =>
      obtain ⟨c, hc, hid⟩ := h.has_chunk n hn htext
      have hmem : c ∈ T.eventChunks.rows.filter fun c => c.noteId = n.noteId := by
        simp [hc, hid]
      have hpos := List.length_pos_of_mem hmem
      omega
  chunk_note c hc := by
    obtain ⟨n, hn, ho⟩ := hT.chunk_note c hc
    exact ⟨n, hn, ho.note, (h.in_step n hn c hc ho.note.symm).symm, ho.community, ho.author,
      ho.noteDate, ho.subject, ho.source⟩
  note_source n hn := by
    obtain ⟨s, hs, ho⟩ := hT.note_source n hn
    exact ⟨s, hs, ho.source, ho.community, ho.author⟩

/-- Where no call of the store fails, every run of ingests, deletes, retries and hard
deletes leaves coherent rows. -/
theorem coherent_run (kind : StoreKind) (engine : SearchEngine) (env : Env) (henv : env.Reliable)
    (ops : List Operation) (hops : ∀ o ∈ ops, o.OnContent) :
    (runAll (kind.backend engine) env (World.initial kind engine) ops).rows.Coherent :=
  (settled_run henv hops).coherent (sound_run env ops).linked

/-- A note, an edit of it, and its removal. -/
theorem coherent_run_edited : (runAll (StoreKind.mock.backend .plain) .steady
    (World.initial .mock .plain)
    [.ingest ⟨none⟩ (.plain .note "2026-05-09\nwalk" 0),
      .ingest ⟨none⟩ (.plain .note "2026-05-09\nrun" 1),
      .delete "chat" "message" "community"]).rows.Coherent :=
  coherent_run .mock .plain .steady Env.steady_reliable _ (by simp [Operation.OnContent])

end Reliable

end DiaryMemory
