import DiaryMemory.MockStore
import DiaryMemory.PyText

/-!
# The SQL stores

`SqliteDomainStore` and `PostgresDomainStore` keep the tables under their declared
keys. A statement that leaves a row without the row it refers to fails at its end
(`statement`), as does an insert at a taken key (`insert`), and the transaction around
it is rolled back : a call either returns the new tables or raises and leaves them
alone.

The two dialects differ in the classes of these errors, in the conflict an insert of a
source row ignores, and in what SQLite leaves out : recall of drafts, export and both
retrieval legs.
-/

namespace DiaryMemory

/-- The two SQL stores. -/
inductive SqlDialect where
  | sqlite | postgres
  deriving DecidableEq

/-- The class of the exception a duplicate key raises. -/
def SqlDialect.uniqueViolation : SqlDialect → Exn
  | sqlite => .integrityError "IntegrityError"
  | postgres => .integrityError "UniqueViolation"

/-- The class of the exception a dangling reference raises. -/
def SqlDialect.foreignKeyViolation : SqlDialect → Exn
  | sqlite => .integrityError "IntegrityError"
  | postgres => .integrityError "ForeignKeyViolation"

namespace Tables

/-- Every declared `REFERENCES` of the schema names a row that is there. -/
structure References (T : Tables) : Prop where
  note_source : ∀ n ∈ T.notes, (T.sourceMessages.find? n.sourceMessageId).isSome
  chunk_note : ∀ c ∈ T.eventChunks, (T.notes.find? c.noteId).isSome
  chunk_source : ∀ c ∈ T.eventChunks, (T.sourceMessages.find? c.sourceMessageId).isSome
  record_chunk : ∀ r ∈ T.embeddingRecords, (T.eventChunks.find? r.chunkId).isSome
  record_source : ∀ r ∈ T.embeddingRecords, (T.sourceMessages.find? r.sourceMessageId).isSome
  hit_query : ∀ h ∈ T.retrievalHits, (T.queries.find? h.queryId).isSome
  hit_chunk : ∀ h ∈ T.retrievalHits, (T.eventChunks.find? h.chunkId).isSome
  trace_query : ∀ t ∈ T.answerTraces, (T.queries.find? t.queryId).isSome
  decision_query : ∀ d ∈ T.chatRouteDecisions, ∀ q ∈ d.queryId, (T.queries.find? q).isSome
  rewrite_decision :
    ∀ r ∈ T.chatQueryRewrites, (T.chatRouteDecisions.find? r.decisionId).isSome
  search_decision :
    ∀ s ∈ T.chatKnowledgeSearches, (T.chatRouteDecisions.find? s.decisionId).isSome
  deadLetter_source :
    ∀ d ∈ T.indexingDeadLetters, (T.sourceMessages.find? d.sourceMessageId).isSome

/-- `References`, evaluated row by row. -/
def checkReferences (T : Tables) : Bool :=
  T.notes.rows.all (fun n => (T.sourceMessages.find? n.sourceMessageId).isSome) &&
  T.eventChunks.rows.all (fun c => (T.notes.find? c.noteId).isSome) &&
  T.eventChunks.rows.all (fun c => (T.sourceMessages.find? c.sourceMessageId).isSome) &&
  T.embeddingRecords.rows.all (fun r => (T.eventChunks.find? r.chunkId).isSome) &&
  T.embeddingRecords.rows.all (fun r => (T.sourceMessages.find? r.sourceMessageId).isSome) &&
  T.retrievalHits.rows.all (fun h => (T.queries.find? h.queryId).isSome) &&
  T.retrievalHits.rows.all (fun h => (T.eventChunks.find? h.chunkId).isSome) &&
  T.answerTraces.rows.all (fun t => (T.queries.find? t.queryId).isSome) &&
  T.chatRouteDecisions.rows.all (fun d => d.queryId.all fun q => (T.queries.find? q).isSome) &&
  T.chatQueryRewrites.rows.all (fun r => (T.chatRouteDecisions.find? r.decisionId).isSome) &&
  T.chatKnowledgeSearches.rows.all (fun s => (T.chatRouteDecisions.find? s.decisionId).isSome) &&
  T.indexingDeadLetters.rows.all fun d => (T.sourceMessages.find? d.sourceMessageId).isSome

theorem checkReferences_iff {T : Tables} : T.checkReferences = true ↔ T.References := by
  simp only [checkReferences, Bool.and_eq_true, List.all_eq_true, Table.mem_rows,
    Option.all_eq_true_iff_get]
  constructor
  · rintro ⟨⟨⟨⟨⟨⟨⟨⟨⟨⟨⟨h1, h2⟩, h3⟩, h4⟩, h5⟩, h6⟩, h7⟩, h8⟩, h9⟩, h10⟩, h11⟩, h12⟩
    refine ⟨h1, h2, h3, h4, h5, h6, h7, h8, fun d hd q hq => ?_, h10, h11, h12⟩
    have := h9 d hd (by rw [Option.mem_def.mp hq]; rfl)
    simpa [Option.mem_def.mp hq] using this
  · intro h
    refine ⟨⟨⟨⟨⟨⟨⟨⟨⟨⟨⟨h.1, h.2⟩, h.3⟩, h.4⟩, h.5⟩, h.6⟩, h.7⟩, h.8⟩, ?_⟩, h.10⟩, h.11⟩, h.12⟩
    exact fun d hd hs => h.9 d hd _ (Option.get_mem hs)

instance (T : Tables) : Decidable T.References := decidable_of_iff _ checkReferences_iff

end Tables

/-- The tables of a SQL store. -/
abbrev SqlDomainStore := Tables

namespace SqlDomainStore

variable (dialect : SqlDialect)

/-- Run one statement, and check the references at its end. -/
def statement (change : Tables → Tables) (T : Tables) : Except Exn Tables :=
  if (change T).References then pure (change T) else throw dialect.foreignKeyViolation

/-- Run one insert, unless its keys conflict with a row that is there. -/
def insert (conflict : Prop) [Decidable conflict] (change : Tables → Tables) (T : Tables) :
    Except Exn Tables :=
  if conflict then throw dialect.uniqueViolation else statement dialect change T

/-- `executemany` : all inserts, or none. -/
def insertMany {α : Type} (one : α → Tables → Except Exn Tables) :
    List α → Tables → Except Exn Tables
  | [], T => pure T
  | a :: as, T => do
    let T' ← one a T
    insertMany one as T'

/-- The insert ignores a conflict on the message key, on SQLite any conflict; the row
that holds the key is returned instead. -/
def getOrCreateSourceMessage (source : SourceMessage) (T : Tables) :
    Except Exn ((SourceMessage × Bool) × Tables) :=
  match T.sourceForKey source.messageKey, T.sourceMessages.find? source.sourceMessageId, dialect with
  | some existing, _, _ => pure ((existing, true), T)
  | none, none, _ => pure ((source, false), T.putSource source)
  | none, some _, .sqlite => throw .assertionError
  | none, some _, .postgres => throw dialect.uniqueViolation

def saveNote (note : Note) (T : Tables) : Except Exn Tables :=
  insert dialect ((T.notes.find? note.noteId).isSome) (fun T => T.putNote note) T

def saveEventChunks (chunks : List EventChunk) (T : Tables) : Except Exn Tables :=
  insertMany (fun c T => insert dialect ((T.eventChunks.find? c.chunkId).isSome)
    (fun T => T.putChunk c) T) chunks T

def notSupported (what canonical : String) : Exn :=
  .notImplementedError ("sqlite " ++ what ++ " not supported; postgres is the canonical " ++ canonical)

def listSourceMessages (community : String) (limit : Option Int) (T : Tables) :
    Except Exn (List SourceMessage) :=
  match dialect with
  | .sqlite => throw (notSupported "raw export" "durable backend (D-022, D-029)")
  | .postgres => do
    requireCommunity community
    if limit.any (· < 0) then throw (.valueError "limit must be non-negative")
    pure (T.listSourceMessages community limit)

def listRecentDrafts (community : String) (limit : Int) (T : Tables) :
    Except Exn (List SourceMessage) :=
  match dialect with
  | .sqlite => throw (notSupported "drafts recall" "durable backend (D-022, D-030)")
  | .postgres => do
    requireCommunity community
    if limit < 1 then throw (.valueError "limit must be >= 1")
    pure (T.listRecentDrafts community limit)

def getActiveNoteForExternalMessage (chat msg community : String) (T : Tables) :
    Except Exn (Option Note) := do
  requireCommunity community
  pure (T.getActiveNoteForExternalMessage chat msg community)

def getActiveChunkForNote (noteId community : String) (T : Tables) :
    Except Exn (Option EventChunk) := do
  requireCommunity community
  pure (T.getActiveChunkForNote noteId community)

def listFailedEventChunks (community : String) (limit : Option Int) (T : Tables) :
    Except Exn (List EventChunk) := do
  requireCommunity community
  if limit.any (· < 0) then throw (.valueError "limit must be non-negative")
  pure (T.listFailedEventChunks community limit)

def saveEmbeddingRecords (records : List EmbeddingRecord) (T : Tables) : Except Exn Tables :=
  insertMany (fun r T => insert dialect ((T.embeddingRecords.find? r.chunkModel).isSome ∨
    ∃ r' ∈ T.embeddingRecords.rows, r'.embeddingRecordId = r.embeddingRecordId)
    (fun T => { T with embeddingRecords := T.embeddingRecords.put r }) T) records T

def setChunkEmbeddingStatus (id : String) (status : EmbeddingStatus) (T : Tables) :
    Except Exn Tables :=
  match T.eventChunks.find? id with
  | none => throw (.keyError ("unknown chunk_id=" ++ id))
  | some _ => pure (T.setStatus id status)

/-- `mark_note_superseded` and `mark_note_tombstoned`. -/
def markNote (state : LifecycleState) (id community : String) (T : Tables) :
    Except Exn Tables := do
  requireCommunity community
  match T.ownedNote id community with
  | none => throw (.keyError ("unknown note_id=" ++ id))
  | some _ => pure (T.markNote state id)

/-- `mark_chunk_superseded` and `mark_chunk_tombstoned`. -/
def markChunk (state : LifecycleState) (id community : String) (T : Tables) :
    Except Exn Tables := do
  requireCommunity community
  match T.ownedChunk id community with
  | none => throw (.keyError ("unknown chunk_id=" ++ id))
  | some _ => pure (T.markChunk state id)

/-- The last delete of a hard delete asks for the community again. -/
def dropOwnedSource (id community : String) (T : Tables) : Tables :=
  { T with
    sourceMessages := T.sourceMessages.discard fun s =>
      s.sourceMessageId = id ∧ s.communityId = community }

/-- The five deletes of a hard delete in their order, each checked at its end, in one
transaction. -/
def hardDeleteSourceMessage (id community : String) (T : Tables) :
    Except Exn (HardDeleteOutcome × Tables) := do
  requireCommunity community
  match T.ownedSource id community with
  | none => throw (.keyError ("unknown source_message_id=" ++ id))
  | some _ =>
    let hits := T.retrievalHits.rows.countP fun h => T.chunkIsOf id h.chunkId
    let T ← statement dialect (fun T => T.dropHits id) T
    let embeds := T.embeddingRecords.rows.countP fun r => r.sourceMessageId = id
    let T ← statement dialect (fun T => T.dropRecords id) T
    let chunks := T.eventChunks.rows.countP fun c => c.sourceMessageId = id
    let T ← statement dialect (fun T => T.dropChunks id) T
    let notes := T.notes.rows.countP fun n => n.sourceMessageId = id
    let T ← statement dialect (fun T => T.dropNotes id) T
    let sources := T.sourceMessages.rows.countP fun s =>
      s.sourceMessageId = id ∧ s.communityId = community
    let T ← statement dialect (fun T => dropOwnedSource id community T) T
    pure (⟨sources, notes, chunks, embeds, hits⟩, T)

/-- The rows of the dense leg join their record under the model. -/
def denseCandidates (engine : SearchEngine) (queryEmbedding : Vec) (modelName : String)
    (scope : SearchScope) (T : Tables) : Except Exn (List EventChunk) :=
  match dialect with
  | .sqlite => throw (notSupported "hybrid retrieval" "retrieval backend (D-022, D-025)")
  | .postgres => do
    requireCommunity scope.community
    if scope.limit ≤ 0 then pure []
    else
      let joined := T.eventChunks.rows.filterMap fun c =>
        (T.embeddingRecords.find? (c.chunkId, modelName)).map fun r => (c, r)
      let rows := joined.filter fun cr =>
        chunkInScope scope cr.1 && cr.1.embeddingStatus = .ready
      pure (((oldestFirst (fun cr => engine.distance queryEmbedding cr.2.embedding) rows).take
        scope.limit.toNat).map Prod.fst)

def sparseCandidates (engine : SearchEngine) (queryText : String) (scope : SearchScope)
    (T : Tables) : Except Exn (List EventChunk) :=
  match dialect with
  | .sqlite => throw (notSupported "hybrid retrieval" "retrieval backend (D-022, D-025)")
  | .postgres => do
    requireCommunity scope.community
    if scope.limit ≤ 0 ∨ PyText.strip queryText = "" then pure []
    else
      let rows := T.eventChunks.rows.filter fun c =>
        chunkInScope scope c && engine.ftsMatches queryText c.chunkText
      let byRank := oldestFirst (fun c : EventChunk =>
        toLex (-engine.ftsRank queryText c.chunkText, toLex (c.createdAt, c.eventIndex))) rows
      pure (byRank.take scope.limit.toNat)

def saveQuery (query : Query) (T : Tables) : Except Exn Tables :=
  insert dialect ((T.queries.find? query.queryId).isSome) (fun T => T.putQuery query) T

def saveRetrievalHits (hits : List RetrievalHit) (T : Tables) : Except Exn Tables :=
  insertMany (fun h T => insert dialect ((T.retrievalHits.find? h.retrievalHitId).isSome ∨
    ∃ h' ∈ T.retrievalHits.rows, (h'.queryId, h'.chunkId, h'.leg) = (h.queryId, h.chunkId, h.leg))
    (fun T => { T with retrievalHits := T.retrievalHits.put h }) T) hits T

def saveAnswerTrace (trace : AnswerTrace) (T : Tables) : Except Exn Tables :=
  insert dialect ((T.answerTraces.find? trace.queryId).isSome ∨
    ∃ t ∈ T.answerTraces.rows, t.answerTraceId = trace.answerTraceId)
    (fun T => T.putTrace trace) T

def saveChatRouteDecision (decision : ChatRouteDecision) (T : Tables) : Except Exn Tables :=
  insert dialect ((T.chatRouteDecisions.find? decision.decisionId).isSome)
    (fun T => T.putDecision decision) T

def saveChatQueryRewrite (rewrite : ChatQueryRewrite) (T : Tables) : Except Exn Tables :=
  insert dialect ((T.chatQueryRewrites.find? rewrite.decisionId).isSome ∨
    ∃ r ∈ T.chatQueryRewrites.rows, r.rewriteId = rewrite.rewriteId)
    (fun T => T.putRewrite rewrite) T

def saveChatKnowledgeSearch (search : ChatKnowledgeSearch) (T : Tables) : Except Exn Tables :=
  insert dialect ((T.chatKnowledgeSearches.find? search.decisionId).isSome ∨
    ∃ s ∈ T.chatKnowledgeSearches.rows, s.searchId = search.searchId)
    (fun T => T.putSearch search) T

def saveIndexingDeadLetter (record : IndexingDeadLetter) (T : Tables) : Except Exn Tables :=
  insert dialect ((T.indexingDeadLetters.find? record.deadLetterId).isSome)
    (fun T => T.putDeadLetter record) T

/-- A call that also returns a value. -/
def returning {α : Type} (T : Tables) : Except Exn (α × Tables) → Except Exn α × Tables
  | .ok (a, T') => (.ok a, T')
  | .error e => (.error e, T)

/-- Serve one call. -/
def handle (engine : SearchEngine) :
    (c : RepoCall) → SqlDomainStore → Except Exn (RepoReply c) × SqlDomainStore
  | .getOrCreateSourceMessage source, T => returning T (getOrCreateSourceMessage dialect source T)
  | .saveNote note, T => writing T (saveNote dialect note T)
  | .saveEventChunks chunks, T => writing T (saveEventChunks dialect chunks T)
  | .listSourceMessages community limit, T =>
    reading T (listSourceMessages dialect community limit T)
  | .listRecentDrafts community limit, T => reading T (listRecentDrafts dialect community limit T)
  | .getNoteBySourceMessageId id, T => reading T (.ok (T.getNoteBySourceMessageId id))
  | .getActiveNoteForExternalMessage chat msg community, T =>
    reading T (getActiveNoteForExternalMessage chat msg community T)
  | .countEventChunksForSource id, T => reading T (.ok (T.countEventChunksForSource id))
  | .getActiveChunkForNote noteId community, T =>
    reading T (getActiveChunkForNote noteId community T)
  | .saveEmbeddingRecords records, T => writing T (saveEmbeddingRecords dialect records T)
  | .setChunkEmbeddingStatus id status, T => writing T (setChunkEmbeddingStatus id status T)
  | .markNote state id community, T => writing T (markNote state id community T)
  | .markChunk state id community, T => writing T (markChunk state id community T)
  | .hardDeleteSourceMessage id community, T =>
    returning T (hardDeleteSourceMessage dialect id community T)
  | .listFailedEventChunks community limit, T =>
    reading T (listFailedEventChunks community limit T)
  | .saveIndexingDeadLetter record, T => writing T (saveIndexingDeadLetter dialect record T)
  | .denseCandidates queryEmbedding modelName scope, T =>
    reading T (denseCandidates dialect engine queryEmbedding modelName scope T)
  | .sparseCandidates queryText scope, T =>
    reading T (sparseCandidates dialect engine queryText scope T)
  | .saveQuery query, T => writing T (saveQuery dialect query T)
  | .saveRetrievalHits hits, T => writing T (saveRetrievalHits dialect hits T)
  | .saveAnswerTrace trace, T => writing T (saveAnswerTrace dialect trace T)
  | .saveChatRouteDecision decision, T => writing T (saveChatRouteDecision dialect decision T)
  | .saveChatQueryRewrite rewrite, T => writing T (saveChatQueryRewrite dialect rewrite T)
  | .saveChatKnowledgeSearch search, T => writing T (saveChatKnowledgeSearch dialect search T)

end SqlDomainStore

end DiaryMemory
