import DiaryMemory.Repository

/-!
# Where the rows come from

Every note is derived from a source row (`NoteOf`), every chunk from a note (`ChunkOf`)
and every embedding record from a chunk (`RecordOf`). `Tables.Linked` says that the rows
a store holds are linked so : a message key names one source row, a source row has at
most one note and a note at most one chunk, the community, author, date and subject are
handed down, a chunk is active only while its note is, and traces refer to rows that
are there. It holds between any two calls of the services, also where a call failed.

`Tables.SameRows` relates two stores that hold the same rows up to lifecycle state and
embedding status; the three writes that only flip such a mark keep the links for this
reason (`Linked.of_sameRows`).
-/

namespace DiaryMemory

/-! ## Rows up to their marks -/

/-- The same note, possibly in another lifecycle state. -/
def Note.Same (n n' : Note) : Prop := n' = n.withState n'.lifecycleState

/-- The same chunk, possibly with another lifecycle state or embedding status. -/
def EventChunk.Same (c c' : EventChunk) : Prop :=
  c' = (c.withState c'.lifecycleState).withStatus c'.embeddingStatus

namespace Note.Same

variable {n n' n'' : Note}

@[refl]
theorem refl (n : Note) : n.Same n := rfl

theorem trans (h : n.Same n') (h' : n'.Same n'') : n.Same n'' := by
  rw [Same, h', h]
  rfl

theorem noteId (h : n.Same n') : n'.noteId = n.noteId := (congrArg Note.noteId h :)

theorem sourceMessageId (h : n.Same n') : n'.sourceMessageId = n.sourceMessageId :=
  (congrArg Note.sourceMessageId h :)

theorem withState (n : Note) (state : LifecycleState) : n.Same (n.withState state) := rfl

end Note.Same

namespace EventChunk.Same

variable {c c' c'' : EventChunk}

@[refl]
theorem refl (c : EventChunk) : c.Same c := rfl

theorem trans (h : c.Same c') (h' : c'.Same c'') : c.Same c'' := by
  rw [Same, h', h]
  rfl

theorem chunkId (h : c.Same c') : c'.chunkId = c.chunkId := (congrArg EventChunk.chunkId h :)

theorem noteId (h : c.Same c') : c'.noteId = c.noteId := (congrArg EventChunk.noteId h :)

theorem sourceMessageId (h : c.Same c') : c'.sourceMessageId = c.sourceMessageId :=
  (congrArg EventChunk.sourceMessageId h :)

theorem communityId (h : c.Same c') : c'.communityId = c.communityId :=
  (congrArg EventChunk.communityId h :)

theorem withState (c : EventChunk) (state : LifecycleState) : c.Same (c.withState state) := rfl

theorem withStatus (c : EventChunk) (status : EmbeddingStatus) : c.Same (c.withStatus status) :=
  rfl

end EventChunk.Same

/-! ## Derivation -/

/-- The note is parsed from the source row. -/
structure NoteOf (s : SourceMessage) (n : Note) : Prop where
  source : s.sourceMessageId = n.sourceMessageId
  community : s.communityId = n.communityId
  author : s.authorUserId = n.authorUserId

/-- The chunk holds the body of the note. -/
structure ChunkOf (n : Note) (c : EventChunk) : Prop where
  note : n.noteId = c.noteId
  source : n.sourceMessageId = c.sourceMessageId
  community : n.communityId = c.communityId
  author : n.authorUserId = c.authorUserId
  noteDate : n.noteDate = c.noteDate
  text : n.noteText = c.chunkText
  subject : n.subjectId = c.subjectId
  nonempty : n.noteText ≠ ""

/-- The record embeds the chunk. -/
structure RecordOf (c : EventChunk) (r : EmbeddingRecord) : Prop where
  chunk : c.chunkId = r.chunkId
  source : c.sourceMessageId = r.sourceMessageId
  community : c.communityId = r.communityId

theorem NoteOf.of_same {s : SourceMessage} {n n' : Note} (h : NoteOf s n) (hn : n.Same n') :
    NoteOf s n' := by
  rw [hn]
  exact ⟨h.source, h.community, h.author⟩

theorem ChunkOf.of_same {n n' : Note} {c c' : EventChunk} (h : ChunkOf n c) (hn : n.Same n')
    (hc : c.Same c') : ChunkOf n' c' := by
  rw [hn, hc]
  exact ⟨h.note, h.source, h.community, h.author, h.noteDate, h.text, h.subject, h.nonempty⟩

theorem RecordOf.of_same {c c' : EventChunk} {r : EmbeddingRecord} (h : RecordOf c r)
    (hc : c.Same c') : RecordOf c' r := by
  rw [hc]
  exact ⟨h.chunk, h.source, h.community⟩

namespace Tables

/-- The rows of a store, linked to what they are derived from. -/
structure Linked (T : Tables) : Prop where
  key_unique : ∀ s ∈ T.sourceMessages, ∀ s' ∈ T.sourceMessages,
    s.messageKey = s'.messageKey → s = s'
  note_source : ∀ n ∈ T.notes, ∃ s ∈ T.sourceMessages, NoteOf s n
  note_unique : ∀ n ∈ T.notes, ∀ n' ∈ T.notes, n.sourceMessageId = n'.sourceMessageId → n = n'
  chunk_note : ∀ c ∈ T.eventChunks, ∃ n ∈ T.notes, ChunkOf n c
  chunk_unique : ∀ c ∈ T.eventChunks, ∀ c' ∈ T.eventChunks, c.noteId = c'.noteId → c = c'
  active_chunk : ∀ c ∈ T.eventChunks, c.lifecycleState = .active →
    ∀ n ∈ T.notes, n.noteId = c.noteId → n.lifecycleState = .active
  record_chunk : ∀ r ∈ T.embeddingRecords, ∃ c ∈ T.eventChunks, RecordOf c r
  hit_query : ∀ h ∈ T.retrievalHits, ∃ q ∈ T.queries, q.queryId = h.queryId
  hit_chunk : ∀ h ∈ T.retrievalHits, ∃ c ∈ T.eventChunks, c.chunkId = h.chunkId
  trace_query : ∀ t ∈ T.answerTraces, ∃ q ∈ T.queries, q.queryId = t.queryId
  decision_query : ∀ d ∈ T.chatRouteDecisions, ∀ id ∈ d.queryId, ∃ q ∈ T.queries, q.queryId = id
  rewrite_decision :
    ∀ r ∈ T.chatQueryRewrites, ∃ d ∈ T.chatRouteDecisions, d.decisionId = r.decisionId
  search_decision :
    ∀ s ∈ T.chatKnowledgeSearches, ∃ d ∈ T.chatRouteDecisions, d.decisionId = s.decisionId

theorem linked_empty : ({} : Tables).Linked where
  key_unique _ h := absurd h Table.not_mem_empty
  note_source _ h := absurd h Table.not_mem_empty
  note_unique _ h := absurd h Table.not_mem_empty
  chunk_note _ h := absurd h Table.not_mem_empty
  chunk_unique _ h := absurd h Table.not_mem_empty
  active_chunk _ h := absurd h Table.not_mem_empty
  record_chunk _ h := absurd h Table.not_mem_empty
  hit_query _ h := absurd h Table.not_mem_empty
  hit_chunk _ h := absurd h Table.not_mem_empty
  trace_query _ h := absurd h Table.not_mem_empty
  decision_query _ h := absurd h Table.not_mem_empty
  rewrite_decision _ h := absurd h Table.not_mem_empty
  search_decision _ h := absurd h Table.not_mem_empty

namespace Linked

variable {T : Tables} (hT : T.Linked)
include hT

/-- Nothing is derived from a source row that is not there. -/
theorem underived {id : String} (hid : ∀ s ∈ T.sourceMessages, s.sourceMessageId ≠ id) :
    (∀ n ∈ T.notes, n.sourceMessageId ≠ id) ∧ ∀ c ∈ T.eventChunks, c.sourceMessageId ≠ id := by
  have hnotes : ∀ n ∈ T.notes, n.sourceMessageId ≠ id := fun n hn => by
    obtain ⟨s, hs, hof⟩ := hT.note_source n hn
    exact hof.source ▸ hid s hs
  refine ⟨hnotes, fun c hc => ?_⟩
  obtain ⟨n, hn, hof⟩ := hT.chunk_note c hc
  exact hof.source ▸ hnotes n hn

/-- Chunks of one source row are of one note. -/
theorem chunk_eq_of_source {c c' : EventChunk} (hc : c ∈ T.eventChunks) (hc' : c' ∈ T.eventChunks)
    (h : c.sourceMessageId = c'.sourceMessageId) : c = c' := by
  obtain ⟨n, hn, ho⟩ := hT.chunk_note c hc
  obtain ⟨n', hn', ho'⟩ := hT.chunk_note c' hc'
  have hnn : n = n' := hT.note_unique n hn n' hn' (ho.source.trans (h.trans ho'.source.symm))
  exact hT.chunk_unique c hc c' hc' (ho.note.symm.trans (hnn ▸ ho'.note))

/-- The note a chunk names is the one it is derived from. -/
theorem chunkOf {n : Note} {c : EventChunk} (hn : n ∈ T.notes) (hc : c ∈ T.eventChunks)
    (h : n.noteId = c.noteId) : ChunkOf n c := by
  obtain ⟨n', hn', ho⟩ := hT.chunk_note c hc
  rwa [Table.eq_of_key hn hn' (h.trans ho.note.symm)]

/-- The row of a key is found. -/
theorem sourceForKey {s : SourceMessage} (hs : s ∈ T.sourceMessages) :
    T.sourceForKey s.messageKey = some s := by
  cases h : T.sourceForKey s.messageKey with
  | none => exact absurd rfl (Tables.sourceForKey_eq_none.mp h s hs)
  | some s' =>
    obtain ⟨hs', hkey⟩ := Tables.mem_of_sourceForKey h
    rw [hT.key_unique s' hs' s hs hkey]

end Linked

/-! ## Flipped marks -/

/-- The same rows up to lifecycle states and embedding statuses. -/
structure SameRows (T T' : Tables) : Prop where
  rest : ∃ notes chunks, T' = { T with notes := notes, eventChunks := chunks }
  note_of : ∀ n' ∈ T'.notes, ∃ n ∈ T.notes, n.Same n'
  note_to : ∀ n ∈ T.notes, ∃ n' ∈ T'.notes, n.Same n'
  chunk_of : ∀ c' ∈ T'.eventChunks, ∃ c ∈ T.eventChunks, c.Same c'
  chunk_to : ∀ c ∈ T.eventChunks, ∃ c' ∈ T'.eventChunks, c.Same c'

theorem Linked.of_sameRows {T T' : Tables} (hT : T.Linked) (h : SameRows T T')
    (hactive : ∀ c ∈ T'.eventChunks, c.lifecycleState = .active →
      ∀ n ∈ T'.notes, n.noteId = c.noteId → n.lifecycleState = .active) : T'.Linked := by
  obtain ⟨⟨notes, chunks, rfl⟩, hnote, hnote', hchunk, hchunk'⟩ := h
  refine { hT with
    note_source := ?_, note_unique := ?_, chunk_note := ?_, chunk_unique := ?_
    active_chunk := hactive, record_chunk := ?_, hit_chunk := ?_ }
  · intro n' hn'
    obtain ⟨n, hn, he⟩ := hnote n' hn'
    obtain ⟨s, hs, ho⟩ := hT.note_source n hn
    exact ⟨s, hs, ho.of_same he⟩
  · intro n₁ h₁ n₂ h₂ hsource
    obtain ⟨m₁, hm₁, he₁⟩ := hnote n₁ h₁
    obtain ⟨m₂, hm₂, he₂⟩ := hnote n₂ h₂
    have hm : m₁ = m₂ := hT.note_unique m₁ hm₁ m₂ hm₂
      (he₁.sourceMessageId.symm.trans (hsource.trans he₂.sourceMessageId))
    exact Table.eq_of_key h₁ h₂ (he₁.noteId.trans (hm ▸ he₂.noteId.symm))
  · intro c' hc'
    obtain ⟨c, hc, he⟩ := hchunk c' hc'
    obtain ⟨n, hn, ho⟩ := hT.chunk_note c hc
    obtain ⟨n', hn', hne⟩ := hnote' n hn
    exact ⟨n', hn', ho.of_same hne he⟩
  · intro c₁ h₁ c₂ h₂ hnote
    obtain ⟨d₁, hd₁, he₁⟩ := hchunk c₁ h₁
    obtain ⟨d₂, hd₂, he₂⟩ := hchunk c₂ h₂
    have hd : d₁ = d₂ := hT.chunk_unique d₁ hd₁ d₂ hd₂
      (he₁.noteId.symm.trans (hnote.trans he₂.noteId))
    exact Table.eq_of_key h₁ h₂ (he₁.chunkId.trans (hd ▸ he₂.chunkId.symm))
  · intro r hr
    obtain ⟨c, hc, ho⟩ := hT.record_chunk r hr
    obtain ⟨c', hc', he⟩ := hchunk' c hc
    exact ⟨c', hc', ho.of_same he⟩
  · intro x hx
    obtain ⟨c, hc, hid⟩ := hT.hit_chunk x hx
    obtain ⟨c', hc', he⟩ := hchunk' c hc
    exact ⟨c', hc', he.chunkId.trans hid⟩

theorem sameRows_markNote (T : Tables) (state : LifecycleState) (id : String) :
    SameRows T (T.markNote state id) where
  rest := ⟨_, T.eventChunks, rfl⟩
  note_of n' hn' := by
    obtain ⟨n, hn, rfl⟩ := mem_markNote.mp hn'
    refine ⟨n, hn, ?_⟩
    split
    · exact .withState n state
    · exact .refl n
  note_to n hn := by
    refine ⟨_, mem_markNote.mpr ⟨n, hn, rfl⟩, ?_⟩
    split
    · exact .withState n state
    · exact .refl n
  chunk_of c hc := ⟨c, hc, .refl c⟩
  chunk_to c hc := ⟨c, hc, .refl c⟩

theorem sameRows_markChunk (T : Tables) (state : LifecycleState) (id : String) :
    SameRows T (T.markChunk state id) where
  rest := ⟨T.notes, _, rfl⟩
  note_of n hn := ⟨n, hn, .refl n⟩
  note_to n hn := ⟨n, hn, .refl n⟩
  chunk_of c' hc' := by
    obtain ⟨c, hc, rfl⟩ := mem_markChunk.mp hc'
    refine ⟨c, hc, ?_⟩
    split
    · exact .withState c state
    · exact .refl c
  chunk_to c hc := by
    refine ⟨_, mem_markChunk.mpr ⟨c, hc, rfl⟩, ?_⟩
    split
    · exact .withState c state
    · exact .refl c

theorem sameRows_setStatus (T : Tables) (id : String) (status : EmbeddingStatus) :
    SameRows T (T.setStatus id status) where
  rest := ⟨T.notes, _, rfl⟩
  note_of n hn := ⟨n, hn, .refl n⟩
  note_to n hn := ⟨n, hn, .refl n⟩
  chunk_of c' hc' := by
    obtain ⟨c, hc, rfl⟩ := mem_setStatus.mp hc'
    refine ⟨c, hc, ?_⟩
    split
    · exact .withStatus c status
    · exact .refl c
  chunk_to c hc := by
    refine ⟨_, mem_setStatus.mpr ⟨c, hc, rfl⟩, ?_⟩
    split
    · exact .withStatus c status
    · exact .refl c

end Tables

end DiaryMemory
