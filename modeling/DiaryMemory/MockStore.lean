import DiaryMemory.Repository
import Mathlib.Algebra.Order.Ring.Unbundled.Rat

/-!
# The in-memory store

`MockDomainStore` keeps the tables as dictionaries, and beside them the idempotency
index that maps the key of a delivered message state to its source row. Rows are
stored without any check on what they refer to; the tables of traces refuse a second
row at a taken key.

The text and vector functions the retrieval legs need (`SearchEngine`) are
parameters : the word pattern and case folding of `_tokenize`, the cosine distance,
and for the SQL store the match and rank of its full-text search.
-/

namespace DiaryMemory

/-- The text and vector functions of the retrieval legs. -/
structure SearchEngine where
  tokenize : String → List String
  distance : Vec → Vec → ℚ
  ftsMatches : String → String → Bool
  ftsRank : String → String → ℚ

/-- Inclusive bounds on the date of the note; no range is no constraint. -/
def chunkInDateRange (c : EventChunk) : Option DateRange → Bool
  | none => true
  | some range => range.start.all (fun s => s ≤ c.noteDate) && range.stop.all fun e => c.noteDate ≤ e

/-- Strict match of the subject; no scope is no constraint. -/
def chunkInSubjectScope (c : EventChunk) : Option String → Bool
  | none => true
  | some subject => c.subjectId = some subject

/-- The rows both retrieval legs of every store start from. -/
def chunkInScope (scope : SearchScope) (c : EventChunk) : Bool :=
  c.communityId = scope.community && c.lifecycleState = .active &&
    chunkInDateRange c scope.dateRange && chunkInSubjectScope c scope.subjectScope

/-- The dictionaries of the store, with the index of message keys. -/
structure MockDomainStore extends Tables where
  idempotency : Table (Prod.fst : MessageKey × String → MessageKey) := .empty
  deriving DecidableEq

/-- Store a row at a key that must be free. -/
def insertNew {K V : Type} [DecidableEq K] {key : V → K} (message : V → String) (t : Table key)
    (v : V) : Except Exn (Table key) :=
  if (t.find? (key v)).isSome then throw (.valueError (message v)) else pure (t.put v)

/-- `insertNew`, row after row; the rows before a refused one stay. -/
def insertAllNew {K V : Type} [DecidableEq K] {key : V → K} (message : V → String) :
    Table key → List V → Except Exn Unit × Table key
  | t, [] => (.ok (), t)
  | t, v :: vs =>
    match insertNew message t v with
    | .error e => (.error e, t)
    | .ok t => insertAllNew message t vs

namespace MockDomainStore

variable (store : MockDomainStore)

/-- The distance below which the dense leg keeps a chunk. -/
def denseThreshold : ℚ := 1 / 2

def saveSourceMessage (source : SourceMessage) : Except Exn Unit × MockDomainStore :=
  if (store.idempotency.find? source.messageKey).isSome then
    (.error (.valueError ("duplicate source message for (chat=" ++ source.externalChatId ++
      ", msg=" ++ source.externalMessageId ++ ", edit_seq=" ++ toString source.editSeq ++
      "); use get_or_create_source_message")), store)
  else
    (.ok (), { store with
      sourceMessages := store.sourceMessages.put source
      idempotency := store.idempotency.put (source.messageKey, source.sourceMessageId) })

def getOrCreateSourceMessage (source : SourceMessage) :
    Except Exn (SourceMessage × Bool) × MockDomainStore :=
  match store.idempotency.find? source.messageKey with
  | some entry =>
    match store.sourceMessages.find? entry.2 with
    | some existing => (.ok (existing, true), store)
    | none => (.error (.keyError entry.2), store)
  | none =>
    (.ok (source, false), { store with
      sourceMessages := store.sourceMessages.put source
      idempotency := store.idempotency.put (source.messageKey, source.sourceMessageId) })

def listSourceMessages (community : String) (limit : Option Int) :
    Except Exn (List SourceMessage) := do
  requireCommunity community
  if limit.any (· < 0) then throw (.valueError "limit must be non-negative")
  pure (store.toTables.listSourceMessages community limit)

def listRecentDrafts (community : String) (limit : Int) : Except Exn (List SourceMessage) := do
  requireCommunity community
  if limit < 1 then throw (.valueError "limit must be >= 1")
  pure (store.toTables.listRecentDrafts community limit)

def getActiveNoteForExternalMessage (chat msg community : String) : Except Exn (Option Note) := do
  requireCommunity community
  pure (store.toTables.getActiveNoteForExternalMessage chat msg community)

def getActiveChunkForNote (noteId community : String) : Except Exn (Option EventChunk) := do
  requireCommunity community
  pure (store.toTables.getActiveChunkForNote noteId community)

def listFailedEventChunks (community : String) (limit : Option Int) :
    Except Exn (List EventChunk) := do
  requireCommunity community
  if limit.any (· < 0) then throw (.valueError "limit must be non-negative")
  pure (store.toTables.listFailedEventChunks community limit)

/-- `_cosine_distance`. -/
def cosineDistance (engine : SearchEngine) (a b : Vec) : Except Exn ℚ :=
  if a.length ≠ b.length then
    throw (.valueError ("vector length mismatch: " ++ toString a.length ++ " vs " ++
      toString b.length))
  else pure (engine.distance a b)

/-- The chunks of the dense leg with their distances and positions, in the order of the
store. -/
def denseRanked (engine : SearchEngine) (queryEmbedding : Vec) (modelName : String) :
    List (EventChunk × Nat) → Except Exn (List ((ℚ × Nat) × EventChunk))
  | [] => pure []
  | (c, index) :: cs =>
    match store.embeddingRecords.find? (c.chunkId, modelName) with
    | none => denseRanked engine queryEmbedding modelName cs
    | some record => do
      let d ← cosineDistance engine queryEmbedding record.embedding
      let rest ← denseRanked engine queryEmbedding modelName cs
      pure (if d ≥ denseThreshold then rest else ((d, index), c) :: rest)

/-- Ties of the distance are broken by the position among the chunks of all communities. -/
def denseCandidates (engine : SearchEngine) (queryEmbedding : Vec) (modelName : String)
    (scope : SearchScope) : Except Exn (List EventChunk) := do
  requireCommunity scope.community
  if scope.limit ≤ 0 then pure []
  else
    let eligible := store.eventChunks.rows.zipIdx.filter fun e =>
      chunkInScope scope e.1 && e.1.embeddingStatus = .ready
    let ranked ← store.denseRanked engine queryEmbedding modelName eligible
    pure (((oldestFirst (fun e => toLex e.1) ranked).take scope.limit.toNat).map Prod.snd)

/-- The number of distinct words a text shares with the query. -/
def overlap (engine : SearchEngine) (queryText text : String) : Nat :=
  ((engine.tokenize queryText).dedup.filter fun w => w ∈ engine.tokenize text).length

/-- Ties of the overlap are broken by the position among the chunks of all communities. -/
def sparseCandidates (engine : SearchEngine) (queryText : String) (scope : SearchScope) :
    Except Exn (List EventChunk) := do
  requireCommunity scope.community
  if scope.limit ≤ 0 then pure []
  else
    let ranked := store.eventChunks.rows.zipIdx.filter fun e =>
      chunkInScope scope e.1 && overlap engine queryText e.1.chunkText ≠ 0
    let byOverlap := oldestFirst
      (fun e => toLex (-(overlap engine queryText e.1.chunkText : Int), e.2)) ranked
    pure ((byOverlap.take scope.limit.toNat).map Prod.fst)

def saveEmbeddingRecords (records : List EmbeddingRecord) : Except Exn Unit × MockDomainStore :=
  let r := insertAllNew (fun record : EmbeddingRecord =>
    "duplicate embedding for chunk_id=" ++ record.chunkId ++ " model=" ++ record.modelName)
    store.embeddingRecords records
  (r.1, { store with embeddingRecords := r.2 })

def setChunkEmbeddingStatus (id : String) (status : EmbeddingStatus) :
    Except Exn MockDomainStore :=
  match store.eventChunks.find? id with
  | none => throw (.keyError ("unknown chunk_id=" ++ id))
  | some _ => pure { store with toTables := store.toTables.setStatus id status }

/-- `mark_note_superseded` and `mark_note_tombstoned`. -/
def markNote (state : LifecycleState) (id community : String) : Except Exn MockDomainStore := do
  requireCommunity community
  match store.ownedNote id community with
  | none => throw (.keyError ("unknown note_id=" ++ id))
  | some _ => pure { store with toTables := store.toTables.markNote state id }

/-- `mark_chunk_superseded` and `mark_chunk_tombstoned`. -/
def markChunk (state : LifecycleState) (id community : String) : Except Exn MockDomainStore := do
  requireCommunity community
  match store.ownedChunk id community with
  | none => throw (.keyError ("unknown chunk_id=" ++ id))
  | some _ => pure { store with toTables := store.toTables.markChunk state id }

/-- The rows go with the source row, and its key leaves the index. -/
def hardDeleteSourceMessage (id community : String) :
    Except Exn (HardDeleteOutcome × MockDomainStore) := do
  requireCommunity community
  match store.ownedSource id community with
  | none => throw (.keyError ("unknown source_message_id=" ++ id))
  | some source =>
    pure (store.removalTally id, { store with
      toTables := store.toTables.removeSource id
      idempotency := store.idempotency.discard fun e => e.1 = source.messageKey })

def saveRetrievalHits (hits : List RetrievalHit) : Except Exn Unit × MockDomainStore :=
  let r := insertAllNew (fun hit : RetrievalHit =>
    "duplicate retrieval_hit_id=" ++ hit.retrievalHitId) store.retrievalHits hits
  (r.1, { store with retrievalHits := r.2 })

def saveQuery (query : Query) : Except Exn MockDomainStore := do
  let t ← insertNew (fun q : Query => "duplicate query_id=" ++ q.queryId) store.queries query
  pure { store with queries := t }

def saveAnswerTrace (trace : AnswerTrace) : Except Exn MockDomainStore := do
  let t ← insertNew (fun t : AnswerTrace => "duplicate answer_trace for query_id=" ++ t.queryId)
    store.answerTraces trace
  pure { store with answerTraces := t }

def saveChatRouteDecision (decision : ChatRouteDecision) : Except Exn MockDomainStore := do
  let t ← insertNew (fun d : ChatRouteDecision => "duplicate decision_id=" ++ d.decisionId)
    store.chatRouteDecisions decision
  pure { store with chatRouteDecisions := t }

/-- The routing decision a chat trace links to must be there. -/
def requireDecision (id : String) : Except Exn Unit :=
  if (store.chatRouteDecisions.find? id).isSome then pure ()
  else throw (.valueError ("unknown decision_id=" ++ id))

def saveChatQueryRewrite (rewrite : ChatQueryRewrite) : Except Exn MockDomainStore := do
  let t ← insertNew (fun r : ChatQueryRewrite => "duplicate rewrite for decision_id=" ++ r.decisionId)
    store.chatQueryRewrites rewrite
  store.requireDecision rewrite.decisionId
  pure { store with chatQueryRewrites := t }

def saveChatKnowledgeSearch (search : ChatKnowledgeSearch) : Except Exn MockDomainStore := do
  let t ← insertNew
    (fun s : ChatKnowledgeSearch => "duplicate knowledge search for decision_id=" ++ s.decisionId)
    store.chatKnowledgeSearches search
  store.requireDecision search.decisionId
  pure { store with chatKnowledgeSearches := t }

def saveIndexingDeadLetter (record : IndexingDeadLetter) : Except Exn MockDomainStore := do
  let t ← insertNew (fun d : IndexingDeadLetter => "duplicate dead_letter_id=" ++ d.deadLetterId)
    store.indexingDeadLetters record
  pure { store with indexingDeadLetters := t }

end MockDomainStore

/-! ## One call -/

/-- A read leaves the store alone. -/
def reading {S α : Type} (s : S) (r : Except Exn α) : Except Exn α × S := (r, s)

/-- A refused write leaves the store alone. -/
def writing {S : Type} (s : S) : Except Exn S → Except Exn Unit × S
  | .ok s' => (.ok (), s')
  | .error e => (.error e, s)

/-- Serve one call. -/
def MockDomainStore.handle (engine : SearchEngine) :
    (c : RepoCall) → MockDomainStore → Except Exn (RepoReply c) × MockDomainStore
  | .getOrCreateSourceMessage source, s => s.getOrCreateSourceMessage source
  | .saveNote note, s => (.ok (), { s with notes := s.notes.put note })
  | .saveEventChunks chunks, s => (.ok (), { s with eventChunks := s.eventChunks.putAll chunks })
  | .listSourceMessages community limit, s => reading s (s.listSourceMessages community limit)
  | .listRecentDrafts community limit, s => reading s (s.listRecentDrafts community limit)
  | .getNoteBySourceMessageId id, s => reading s (.ok (s.getNoteBySourceMessageId id))
  | .getActiveNoteForExternalMessage chat msg community, s =>
    reading s (s.getActiveNoteForExternalMessage chat msg community)
  | .countEventChunksForSource id, s => reading s (.ok (s.countEventChunksForSource id))
  | .getActiveChunkForNote noteId community, s =>
    reading s (s.getActiveChunkForNote noteId community)
  | .saveEmbeddingRecords records, s => s.saveEmbeddingRecords records
  | .setChunkEmbeddingStatus id status, s => writing s (s.setChunkEmbeddingStatus id status)
  | .markNote state id community, s => writing s (s.markNote state id community)
  | .markChunk state id community, s => writing s (s.markChunk state id community)
  | .hardDeleteSourceMessage id community, s =>
    match s.hardDeleteSourceMessage id community with
    | .ok (tally, s') => (.ok tally, s')
    | .error e => (.error e, s)
  | .listFailedEventChunks community limit, s =>
    reading s (s.listFailedEventChunks community limit)
  | .saveIndexingDeadLetter record, s => writing s (s.saveIndexingDeadLetter record)
  | .denseCandidates queryEmbedding modelName scope, s =>
    reading s (s.denseCandidates engine queryEmbedding modelName scope)
  | .sparseCandidates queryText scope, s => reading s (s.sparseCandidates engine queryText scope)
  | .saveQuery query, s => writing s (s.saveQuery query)
  | .saveRetrievalHits hits, s => s.saveRetrievalHits hits
  | .saveAnswerTrace trace, s => writing s (s.saveAnswerTrace trace)
  | .saveChatRouteDecision decision, s => writing s (s.saveChatRouteDecision decision)
  | .saveChatQueryRewrite rewrite, s => writing s (s.saveChatQueryRewrite rewrite)
  | .saveChatKnowledgeSearch search, s => writing s (s.saveChatKnowledgeSearch search)

end DiaryMemory
