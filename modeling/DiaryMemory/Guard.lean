import DiaryMemory.Lineage

/-!
# What the services promise the stores

`RepoCall.Guard` is what holds of the rows whenever a service makes a call : the rows it
inserts are new and refer to rows that are there, a source row gets one note and a note
one chunk, and only an active row of the community is flipped, the chunk before the
note. Under this guard the effect of every call keeps the links (`Linked.effect`).

Identifiers come from one sequence of draws. `Tables.Minted` says that every
identifier in a store is among the first `n` drawn, so that the next one is not in use;
`RepoCall.newIds` are the identifiers a call brings in.
-/

namespace DiaryMemory

namespace RepoCall

/-- What a service promises when it makes the call. -/
def Guard : RepoCall → Tables → Prop
  | getOrCreateSourceMessage s, T => ∀ x ∈ T.sourceMessages, x.sourceMessageId ≠ s.sourceMessageId
  | saveNote n, T =>
    (∀ x ∈ T.notes, x.noteId ≠ n.noteId ∧ x.sourceMessageId ≠ n.sourceMessageId) ∧
      n.lifecycleState = .active ∧ ∃ s ∈ T.sourceMessages, NoteOf s n
  | saveEventChunks cs, T => cs.length ≤ 1 ∧ ∀ c ∈ cs,
    (∀ x ∈ T.eventChunks, x.chunkId ≠ c.chunkId ∧ x.noteId ≠ c.noteId) ∧
      c.lifecycleState = .active ∧ c.embeddingStatus = .pending ∧
      ∃ n ∈ T.notes, ChunkOf n c ∧ n.lifecycleState = .active
  | saveEmbeddingRecords rs, T => rs.length ≤ 1 ∧ ∀ r ∈ rs,
    (∀ x ∈ T.embeddingRecords, x.embeddingRecordId ≠ r.embeddingRecordId) ∧
      ∃ c ∈ T.eventChunks, RecordOf c r
  | setChunkEmbeddingStatus id _, T => ∃ c ∈ T.eventChunks, c.chunkId = id
  | markNote state id community, T =>
    state ≠ .active ∧ community ≠ "" ∧ (∃ n ∈ T.notes, n.noteId = id ∧
      n.communityId = community ∧ n.lifecycleState = .active) ∧
      ∀ c ∈ T.eventChunks, c.noteId = id → c.lifecycleState ≠ .active
  | markChunk state id community, T =>
    state ≠ .active ∧ community ≠ "" ∧ ∃ c ∈ T.eventChunks, c.chunkId = id ∧
      c.communityId = community ∧ c.lifecycleState = .active
  | saveIndexingDeadLetter d, T =>
    (∀ x ∈ T.indexingDeadLetters, x.deadLetterId ≠ d.deadLetterId) ∧
      ∃ s ∈ T.sourceMessages, s.sourceMessageId = d.sourceMessageId
  | saveQuery q, T => ∀ x ∈ T.queries, x.queryId ≠ q.queryId
  | saveRetrievalHits hs, T =>
    (hs.map RetrievalHit.retrievalHitId).Nodup ∧
      (hs.map fun h => (h.queryId, h.chunkId, h.leg)).Nodup ∧ ∀ h ∈ hs,
      (∀ x ∈ T.retrievalHits, x.retrievalHitId ≠ h.retrievalHitId ∧ x.queryId ≠ h.queryId) ∧
        (∃ q ∈ T.queries, q.queryId = h.queryId) ∧ ∃ c ∈ T.eventChunks, c.chunkId = h.chunkId
  | saveAnswerTrace t, T =>
    (∀ x ∈ T.answerTraces, x.answerTraceId ≠ t.answerTraceId ∧ x.queryId ≠ t.queryId) ∧
      ∃ q ∈ T.queries, q.queryId = t.queryId
  | saveChatRouteDecision d, T =>
    (∀ x ∈ T.chatRouteDecisions, x.decisionId ≠ d.decisionId) ∧
      ∀ id ∈ d.queryId, ∃ q ∈ T.queries, q.queryId = id
  | saveChatQueryRewrite r, T =>
    (∀ x ∈ T.chatQueryRewrites, x.rewriteId ≠ r.rewriteId ∧ x.decisionId ≠ r.decisionId) ∧
      ∃ d ∈ T.chatRouteDecisions, d.decisionId = r.decisionId
  | saveChatKnowledgeSearch s, T =>
    (∀ x ∈ T.chatKnowledgeSearches, x.searchId ≠ s.searchId ∧ x.decisionId ≠ s.decisionId) ∧
      ∃ d ∈ T.chatRouteDecisions, d.decisionId = s.decisionId
  | _, _ => True

/-- The identifiers the call brings in. -/
def newIds : RepoCall → List String
  | getOrCreateSourceMessage s => [s.sourceMessageId]
  | saveNote n => [n.noteId]
  | saveEventChunks cs => cs.map EventChunk.chunkId
  | saveEmbeddingRecords rs => rs.map EmbeddingRecord.embeddingRecordId
  | saveIndexingDeadLetter d => [d.deadLetterId]
  | saveQuery q => [q.queryId]
  | saveRetrievalHits hs => hs.map RetrievalHit.retrievalHitId
  | saveAnswerTrace t => [t.answerTraceId]
  | saveChatRouteDecision d => [d.decisionId]
  | saveChatQueryRewrite r => [r.rewriteId]
  | saveChatKnowledgeSearch s => [s.searchId]
  | _ => []

/-- Chunks are saved one at a time. -/
theorem Guard.saved {cs : List EventChunk} {T : Tables} (hg : (saveEventChunks cs).Guard T) :
    cs = [] ∨ ∃ c, cs = [c] ∧
      (∀ x ∈ T.eventChunks, x.chunkId ≠ c.chunkId ∧ x.noteId ≠ c.noteId) ∧
      c.lifecycleState = .active ∧ c.embeddingStatus = .pending ∧
        ∃ n ∈ T.notes, ChunkOf n c ∧ n.lifecycleState = .active := by
  obtain ⟨hlen, hg⟩ := hg
  rcases cs with _ | ⟨c, _ | ⟨d, cs⟩⟩
  · exact .inl rfl
  · exact .inr ⟨c, rfl, hg c List.mem_cons_self⟩
  · simp at hlen

/-- A saved chunk replaces none. -/
theorem Guard.keeps_chunk {cs : List EventChunk} {T : Tables} (hg : (saveEventChunks cs).Guard T)
    {x : EventChunk} (hx : x ∈ T.eventChunks) : x ∈ (T.putChunks cs).eventChunks := by
  obtain rfl | ⟨c, rfl, hfresh, -⟩ := hg.saved
  · exact hx
  · exact Table.mem_put_of_ne hx (hfresh x hx).1

end RepoCall

/-! ## Identifiers -/

/-- The identifier is among the first `n` drawn. -/
def Drawn (uuid : Nat → String) (n : Nat) (id : String) : Prop := ∃ j < n, uuid j = id

theorem Drawn.mono {uuid : Nat → String} {n m : Nat} {id : String} (h : Drawn uuid n id)
    (hnm : n ≤ m) : Drawn uuid m id := by
  obtain ⟨j, hj, rfl⟩ := h
  exact ⟨j, hj.trans_le hnm, rfl⟩

/-- A later draw is another identifier. -/
theorem Drawn.ne {uuid : Nat → String} (hinj : Function.Injective uuid) {n m : Nat} {id : String}
    (h : Drawn uuid n id) (hnm : n ≤ m) : id ≠ uuid m := by
  obtain ⟨j, hj, rfl⟩ := h
  exact fun he => absurd (hinj he) (by omega)

/-- The identifier is not among the first `n` drawn, but a later one. -/
def Undrawn (uuid : Nat → String) (n : Nat) (id : String) : Prop := ∃ j, n ≤ j ∧ id = uuid j

theorem Undrawn.mono {uuid : Nat → String} {n m : Nat} {id : String} (h : Undrawn uuid m id)
    (hnm : n ≤ m) : Undrawn uuid n id := by
  obtain ⟨j, hj, rfl⟩ := h
  exact ⟨j, hnm.trans hj, rfl⟩

theorem Undrawn.ne {uuid : Nat → String} (hinj : Function.Injective uuid) {n : Nat}
    {id id' : String} (h : Undrawn uuid n id) (h' : Drawn uuid n id') : id' ≠ id := by
  obtain ⟨j, hj, rfl⟩ := h
  exact h'.ne hinj hj

namespace Tables

/-- Every identifier in the store is among the first `n` drawn. -/
structure Minted (uuid : Nat → String) (n : Nat) (T : Tables) : Prop where
  source : ∀ s ∈ T.sourceMessages, Drawn uuid n s.sourceMessageId
  note : ∀ x ∈ T.notes, Drawn uuid n x.noteId
  chunk : ∀ c ∈ T.eventChunks, Drawn uuid n c.chunkId
  record : ∀ r ∈ T.embeddingRecords, Drawn uuid n r.embeddingRecordId
  query : ∀ q ∈ T.queries, Drawn uuid n q.queryId
  hit : ∀ h ∈ T.retrievalHits, Drawn uuid n h.retrievalHitId
  trace : ∀ t ∈ T.answerTraces, Drawn uuid n t.answerTraceId
  decision : ∀ d ∈ T.chatRouteDecisions, Drawn uuid n d.decisionId
  rewrite : ∀ r ∈ T.chatQueryRewrites, Drawn uuid n r.rewriteId
  search : ∀ s ∈ T.chatKnowledgeSearches, Drawn uuid n s.searchId
  deadLetter : ∀ d ∈ T.indexingDeadLetters, Drawn uuid n d.deadLetterId

variable {uuid : Nat → String} {n m : Nat} {T : Tables}

theorem minted_empty : ({} : Tables).Minted uuid n where
  source _ h := absurd h Table.not_mem_empty
  note _ h := absurd h Table.not_mem_empty
  chunk _ h := absurd h Table.not_mem_empty
  record _ h := absurd h Table.not_mem_empty
  query _ h := absurd h Table.not_mem_empty
  hit _ h := absurd h Table.not_mem_empty
  trace _ h := absurd h Table.not_mem_empty
  decision _ h := absurd h Table.not_mem_empty
  rewrite _ h := absurd h Table.not_mem_empty
  search _ h := absurd h Table.not_mem_empty
  deadLetter _ h := absurd h Table.not_mem_empty

theorem Minted.mono (h : T.Minted uuid n) (hnm : n ≤ m) : T.Minted uuid m where
  source x hx := (h.source x hx).mono hnm
  note x hx := (h.note x hx).mono hnm
  chunk x hx := (h.chunk x hx).mono hnm
  record x hx := (h.record x hx).mono hnm
  query x hx := (h.query x hx).mono hnm
  hit x hx := (h.hit x hx).mono hnm
  trace x hx := (h.trace x hx).mono hnm
  decision x hx := (h.decision x hx).mono hnm
  rewrite x hx := (h.rewrite x hx).mono hnm
  search x hx := (h.search x hx).mono hnm
  deadLetter x hx := (h.deadLetter x hx).mono hnm

theorem Minted.removeSource (h : T.Minted uuid n) (id : String) :
    (T.removeSource id).Minted uuid n :=
  { h with
    source := fun x hx => h.source x (Table.mem_discard.mp hx).1
    note := fun x hx => h.note x (Table.mem_discard.mp hx).1
    chunk := fun x hx => h.chunk x (Table.mem_discard.mp hx).1
    record := fun x hx => h.record x (Table.mem_discard.mp hx).1
    hit := fun x hx => h.hit x (Table.mem_discard.mp hx).1 }

theorem Minted.of_sameRows {T' : Tables} (h : T.Minted uuid n) (hs : SameRows T T') :
    T'.Minted uuid n := by
  obtain ⟨⟨notes, chunks, rfl⟩, hnote, -, hchunk, -⟩ := hs
  refine { h with note := fun n' hn' => ?_, chunk := fun c' hc' => ?_ }
  · obtain ⟨n, hn, he⟩ := hnote n' hn'
    exact he.noteId ▸ h.note n hn
  · obtain ⟨c, hc, he⟩ := hchunk c' hc'
    exact he.chunkId ▸ h.chunk c hc

/-- A call brings in no identifiers but its own. -/
theorem Minted.effect {c : RepoCall} (h : T.Minted uuid n)
    (hnew : ∀ id ∈ c.newIds, Drawn uuid n id) : (c.effect T).Minted uuid n := by
  have hone : ∀ {id : String}, c.newIds = [id] → Drawn uuid n id := fun he =>
    hnew _ (he ▸ List.mem_singleton_self _)
  cases c with
  | getOrCreateSourceMessage s =>
    rw [RepoCall.effect]
    split
    · exact h
    · exact { h with source := Table.forall_put h.source (hone rfl) }
  | saveNote x => exact { h with note := Table.forall_put h.note (hone rfl) }
  | saveEventChunks cs =>
    exact { h with chunk := Table.forall_putAll h.chunk fun c hc => hnew _ (List.mem_map_of_mem hc) }
  | saveEmbeddingRecords rs =>
    exact { h with
      record := Table.forall_putAll h.record fun r hr => hnew _ (List.mem_map_of_mem hr) }
  | setChunkEmbeddingStatus id status => exact h.of_sameRows (sameRows_setStatus T id status)
  | markNote state id => exact h.of_sameRows (sameRows_markNote T state id)
  | markChunk state id => exact h.of_sameRows (sameRows_markChunk T state id)
  | hardDeleteSourceMessage id => exact h.removeSource id
  | saveIndexingDeadLetter d => exact { h with deadLetter := Table.forall_put h.deadLetter (hone rfl) }
  | saveQuery q => exact { h with query := Table.forall_put h.query (hone rfl) }
  | saveRetrievalHits hs =>
    exact { h with hit := Table.forall_putAll h.hit fun x hx => hnew _ (List.mem_map_of_mem hx) }
  | saveAnswerTrace t => exact { h with trace := Table.forall_put h.trace (hone rfl) }
  | saveChatRouteDecision d => exact { h with decision := Table.forall_put h.decision (hone rfl) }
  | saveChatQueryRewrite r => exact { h with rewrite := Table.forall_put h.rewrite (hone rfl) }
  | saveChatKnowledgeSearch s => exact { h with search := Table.forall_put h.search (hone rfl) }
  | _ => exact h

/-! ## The links are kept -/

theorem Linked.putSource {s : SourceMessage} (h : T.Linked)
    (hfresh : ∀ x ∈ T.sourceMessages, x.sourceMessageId ≠ s.sourceMessageId)
    (hkey : ∀ x ∈ T.sourceMessages, x.messageKey ≠ s.messageKey) : (T.putSource s).Linked := by
  have hmem : ∀ x, x ∈ (T.putSource s).sourceMessages ↔ x = s ∨ x ∈ T.sourceMessages := fun x =>
    Table.mem_put_of_fresh hfresh
  refine { h with key_unique := fun x hx y hy he => ?_, note_source := fun n hn => ?_ }
  · rcases (hmem x).mp hx with rfl | hx' <;> rcases (hmem y).mp hy with rfl | hy'
    · rfl
    · exact absurd he.symm (hkey y hy')
    · exact absurd he (hkey x hx')
    · exact h.key_unique x hx' y hy' he
  · obtain ⟨x, hx, ho⟩ := h.note_source n hn
    exact ⟨x, (hmem x).mpr (Or.inr hx), ho⟩

theorem Linked.putNote {x : Note} (h : T.Linked)
    (hfresh : ∀ y ∈ T.notes, y.noteId ≠ x.noteId ∧ y.sourceMessageId ≠ x.sourceMessageId)
    (hsource : ∃ s ∈ T.sourceMessages, NoteOf s x) : (T.putNote x).Linked := by
  have hmem : ∀ y, y ∈ (T.putNote x).notes ↔ y = x ∨ y ∈ T.notes := fun y =>
    Table.mem_put_of_fresh fun y hy => (hfresh y hy).1
  refine { h with
    note_source := Table.forall_put h.note_source hsource
    note_unique := fun y hy z hz he => ?_
    chunk_note := fun c hc => ?_
    active_chunk := fun c hc hactive y hy hid => ?_ }
  · rcases (hmem y).mp hy with rfl | hy' <;> rcases (hmem z).mp hz with rfl | hz'
    · rfl
    · exact absurd he.symm (hfresh z hz').2
    · exact absurd he (hfresh y hy').2
    · exact h.note_unique y hy' z hz' he
  · obtain ⟨y, hy, ho⟩ := h.chunk_note c hc
    exact ⟨y, (hmem y).mpr (Or.inr hy), ho⟩
  · rcases (hmem y).mp hy with rfl | hy
    · obtain ⟨z, hz, ho⟩ := h.chunk_note c hc
      exact absurd (ho.note.trans hid.symm) (hfresh z hz).1
    · exact h.active_chunk c hc hactive y hy hid

theorem Linked.putChunk {c : EventChunk} (h : T.Linked)
    (hfresh : ∀ x ∈ T.eventChunks, x.chunkId ≠ c.chunkId ∧ x.noteId ≠ c.noteId)
    (hnote : ∃ n ∈ T.notes, ChunkOf n c ∧ n.lifecycleState = .active) : (T.putChunk c).Linked := by
  have hmem : ∀ x, x ∈ (T.putChunk c).eventChunks ↔ x = c ∨ x ∈ T.eventChunks := fun x =>
    Table.mem_put_of_fresh fun x hx => (hfresh x hx).1
  obtain ⟨n, hn, ho, ha⟩ := hnote
  refine { h with
    chunk_note := Table.forall_put h.chunk_note ⟨n, hn, ho⟩
    chunk_unique := fun x hx y hy he => ?_
    active_chunk := fun x hx hactive m hm hid => ?_
    record_chunk := fun r hr => ?_
    hit_chunk := fun x hx => Table.exists_put (h.hit_chunk x hx) }
  · rcases (hmem x).mp hx with rfl | hx' <;> rcases (hmem y).mp hy with rfl | hy'
    · rfl
    · exact absurd he.symm (hfresh y hy').2
    · exact absurd he (hfresh x hx').2
    · exact h.chunk_unique x hx' y hy' he
  · rcases (hmem x).mp hx with rfl | hx
    · rwa [Table.eq_of_key hm hn (hid.trans ho.note.symm)]
    · exact h.active_chunk x hx hactive m hm hid
  · obtain ⟨x, hx, ho⟩ := h.record_chunk r hr
    exact ⟨x, (hmem x).mpr (Or.inr hx), ho⟩

theorem Linked.dropHits (h : T.Linked) (id : String) : (T.dropHits id).Linked :=
  { h with
    hit_query := fun x hx => h.hit_query x (Table.mem_discard.mp hx).1
    hit_chunk := fun x hx => h.hit_chunk x (Table.mem_discard.mp hx).1 }

theorem Linked.dropRecords (h : T.Linked) (id : String) : (T.dropRecords id).Linked :=
  { h with record_chunk := fun r hr => h.record_chunk r (Table.mem_discard.mp hr).1 }

/-- The chunks of a source row can go once nothing refers to them. -/
theorem Linked.dropChunks (h : T.Linked) {id : String}
    (hrecords : ∀ r ∈ T.embeddingRecords, r.sourceMessageId ≠ id)
    (hhits : ∀ x ∈ T.retrievalHits, T.chunkIsOf id x.chunkId = false) :
    (T.dropChunks id).Linked := by
  have hkept : ∀ c ∈ T.eventChunks, c.sourceMessageId ≠ id → c ∈ (T.dropChunks id).eventChunks :=
    fun c hc hne => Table.mem_discard.mpr ⟨hc, decide_eq_false hne⟩
  refine { h with
    chunk_note := fun c hc => h.chunk_note c (Table.mem_discard.mp hc).1
    chunk_unique := fun x hx y hy =>
      h.chunk_unique x (Table.mem_discard.mp hx).1 y (Table.mem_discard.mp hy).1
    active_chunk := fun c hc => h.active_chunk c (Table.mem_discard.mp hc).1
    record_chunk := fun r hr => ?_, hit_chunk := fun x hx => ?_ }
  · obtain ⟨c, hc, ho⟩ := h.record_chunk r hr
    exact ⟨c, hkept c hc (ho.source ▸ hrecords r hr), ho⟩
  · obtain ⟨c, hc, hid⟩ := h.hit_chunk x hx
    refine ⟨c, hkept c hc fun he => ?_, hid⟩
    have htrue := chunkIsOf_iff.mpr ⟨c, hc, hid, he⟩
    rw [hhits x hx] at htrue
    cases htrue

/-- The notes of a source row can go once it has no chunks. -/
theorem Linked.dropNotes (h : T.Linked) {id : String}
    (hchunks : ∀ c ∈ T.eventChunks, c.sourceMessageId ≠ id) : (T.dropNotes id).Linked := by
  refine { h with
    note_source := fun n hn => h.note_source n (Table.mem_discard.mp hn).1
    note_unique := fun x hx y hy =>
      h.note_unique x (Table.mem_discard.mp hx).1 y (Table.mem_discard.mp hy).1
    chunk_note := fun c hc => ?_
    active_chunk := fun c hc ha n hn => h.active_chunk c hc ha n (Table.mem_discard.mp hn).1 }
  obtain ⟨n, hn, ho⟩ := h.chunk_note c hc
  exact ⟨n, Table.mem_discard.mpr ⟨hn, decide_eq_false (ho.source.symm ▸ hchunks c hc)⟩, ho⟩

/-- A source row can go once it has no notes. -/
theorem Linked.dropSource (h : T.Linked) {id : String}
    (hnotes : ∀ n ∈ T.notes, n.sourceMessageId ≠ id) : (T.dropSource id).Linked := by
  refine { h with
    key_unique := fun x hx y hy =>
      h.key_unique x (Table.mem_discard.mp hx).1 y (Table.mem_discard.mp hy).1
    note_source := fun n hn => ?_ }
  obtain ⟨s, hs, ho⟩ := h.note_source n hn
  exact ⟨s, Table.mem_discard.mpr ⟨hs, decide_eq_false (ho.source.symm ▸ hnotes n hn)⟩, ho⟩

/-- Whatever is derived from a source row goes before it, in four steps that keep the
links. -/
theorem Linked.removal (h : T.Linked) (id : String) :
    (((T.dropHits id).dropRecords id).dropChunks id).Linked ∧
      ((((T.dropHits id).dropRecords id).dropChunks id).dropNotes id).Linked := by
  have h3 : (((T.dropHits id).dropRecords id).dropChunks id).Linked :=
    ((h.dropHits id).dropRecords id).dropChunks
      (fun r hr => of_decide_eq_false (Table.mem_discard.mp hr).2)
      fun x hx => (Table.mem_discard.mp hx).2
  exact ⟨h3, h3.dropNotes fun c hc => of_decide_eq_false (Table.mem_discard.mp hc).2⟩

theorem Linked.removeSource (h : T.Linked) (id : String) : (T.removeSource id).Linked :=
  (h.removal id).2.dropSource fun _ hn => of_decide_eq_false (Table.mem_discard.mp hn).2

theorem Linked.markNote {state : LifecycleState} {id : String} (h : T.Linked)
    (hchunks : ∀ c ∈ T.eventChunks, c.noteId = id → c.lifecycleState ≠ .active) :
    (T.markNote state id).Linked := by
  refine h.of_sameRows (sameRows_markNote T state id) fun c hc hactive n' hn' hid => ?_
  obtain ⟨n, hn, rfl⟩ := mem_markNote.mp hn'
  split at hid
  · next heq => exact absurd hactive (hchunks c hc (hid.symm.trans heq))
  · next heq =>
    rw [if_neg heq]
    exact h.active_chunk c hc hactive n hn hid

theorem Linked.markChunk {state : LifecycleState} {id : String} (h : T.Linked)
    (hstate : state ≠ .active) : (T.markChunk state id).Linked := by
  refine h.of_sameRows (sameRows_markChunk T state id) fun c' hc' hactive n hn hid => ?_
  obtain ⟨c, hc, rfl⟩ := mem_markChunk.mp hc'
  split at hactive
  · exact absurd hactive hstate
  · next heq =>
    rw [if_neg heq] at hid
    exact h.active_chunk c hc hactive n hn hid

theorem Linked.setStatus {id : String} {status : EmbeddingStatus} (h : T.Linked) :
    (T.setStatus id status).Linked := by
  refine h.of_sameRows (sameRows_setStatus T id status) fun c' hc' hactive n hn hid => ?_
  obtain ⟨c, hc, rfl⟩ := mem_setStatus.mp hc'
  split at hactive
  · next heq =>
    rw [if_pos heq] at hid
    exact h.active_chunk c hc hactive n hn hid
  · next heq =>
    rw [if_neg heq] at hid
    exact h.active_chunk c hc hactive n hn hid

/-- The effect of a call under its guard keeps the links. -/
theorem Linked.effect {c : RepoCall} (h : T.Linked) (hg : c.Guard T) : (c.effect T).Linked := by
  cases c with
  | getOrCreateSourceMessage s =>
    rw [RepoCall.effect]
    split
    · exact h
    · next hkey => exact h.putSource hg (sourceForKey_eq_none.mp hkey)
  | saveNote x => exact h.putNote hg.1 hg.2.2
  | saveEventChunks cs =>
    obtain rfl | ⟨c, rfl, hfresh, -, -, hnote⟩ := hg.saved
    · exact h
    · exact h.putChunk hfresh hnote
  | saveEmbeddingRecords rs =>
    exact { h with
      record_chunk := Table.forall_putAll h.record_chunk fun r hr => (hg.2 r hr).2 }
  | setChunkEmbeddingStatus id status => exact h.setStatus
  | markNote state id => exact h.markNote hg.2.2.2
  | markChunk state id => exact h.markChunk hg.1
  | hardDeleteSourceMessage id => exact h.removeSource id
  | saveIndexingDeadLetter d => exact { h with }
  | saveQuery q =>
    exact { h with
      hit_query := fun x hx => Table.exists_put (h.hit_query x hx)
      trace_query := fun x hx => Table.exists_put (h.trace_query x hx)
      decision_query := fun x hx id hid => Table.exists_put (h.decision_query x hx id hid) }
  | saveRetrievalHits hs =>
    exact { h with
      hit_query := Table.forall_putAll h.hit_query fun x hx => (hg.2.2 x hx).2.1
      hit_chunk := Table.forall_putAll h.hit_chunk fun x hx => (hg.2.2 x hx).2.2 }
  | saveAnswerTrace t =>
    exact { h with trace_query := Table.forall_put h.trace_query hg.2 }
  | saveChatRouteDecision d =>
    exact { h with
      decision_query := Table.forall_put h.decision_query hg.2
      rewrite_decision := fun x hx => Table.exists_put (h.rewrite_decision x hx)
      search_decision := fun x hx => Table.exists_put (h.search_decision x hx) }
  | saveChatQueryRewrite r =>
    exact { h with rewrite_decision := Table.forall_put h.rewrite_decision hg.2 }
  | saveChatKnowledgeSearch s =>
    exact { h with search_decision := Table.forall_put h.search_decision hg.2 }
  | _ => exact h

end Tables

end DiaryMemory
