import DiaryMemory.Tables

/-!
# The repository interface

The exceptions that travel between the stores, the providers and the services
(`Exn`), and the operations of `DomainRepository` and `SearchRepository` as data : a
`RepoCall` is one call, `RepoReply` the type of what it returns. Every call commits
on its own.

`RepoCall.effect` is what a call that succeeds does to the rows of a store, the same
for all three stores.
-/

namespace DiaryMemory

/-! ## Exceptions -/

/-- The error families of the four answer parsers. -/
inductive AnswerFamily where
  | structured | notesPlusModel | notesPlusKnowledge | modelOnly
  deriving DecidableEq

/-- The optional providers of the routed chat. -/
inductive ProviderKind where
  | classifier | rewriter | outwardRewriter | knowledge
  deriving DecidableEq

/-- A raised exception. `other` stands for the classes no service names. -/
inductive Exn where
  | valueError (message : String)
  | keyError (message : String)
  | typeError (message : String)
  | runtimeError (message : String)
  | notImplementedError (message : String)
  | assertionError
  | integrityError (className : String)
  | crossCommunityContext (message : String)
  | chatProviderUnavailable (message : String)
  | providerUnavailable (kind : ProviderKind)
  | providerOutput (kind : ProviderKind) (rawOutput : String)
  | answerError (family : AnswerFamily) (className message : String)
  | other (className : String)
  deriving DecidableEq

/-- `exc.__class__.__name__`. -/
def Exn.className : Exn → String
  | valueError _ => "ValueError"
  | keyError _ => "KeyError"
  | typeError _ => "TypeError"
  | runtimeError _ => "RuntimeError"
  | notImplementedError _ => "NotImplementedError"
  | assertionError => "AssertionError"
  | integrityError name => name
  | crossCommunityContext _ => "CrossCommunityContextError"
  | chatProviderUnavailable _ => "ChatProviderUnavailableError"
  | providerUnavailable .classifier => "ChatRouteClassifierUnavailableError"
  | providerUnavailable .rewriter => "QueryRewriterUnavailableError"
  | providerUnavailable .outwardRewriter => "OutwardRewriterUnavailableError"
  | providerUnavailable .knowledge => "KnowledgeSourceUnavailableError"
  | providerOutput .classifier _ => "ChatRouteOutputError"
  | providerOutput .rewriter _ => "QueryRewriteOutputError"
  | providerOutput .outwardRewriter _ => "OutwardRewriteOutputError"
  | providerOutput .knowledge _ => "KnowledgeSourceOutputError"
  | answerError _ name _ => name
  | other name => name

/-- The check every community-scoped operation of a store starts with. -/
def requireCommunity (community : String) : Except Exn Unit :=
  if community = "" then throw (.valueError "community_id is required (Runtime invariant R-3)")
  else pure ()

/-! ## Calls -/

/-- The arguments the two retrieval passes share. -/
structure SearchScope where
  community : String
  limit : Int
  dateRange : Option DateRange := none
  subjectScope : Option String := none
  deriving DecidableEq

/-- One call of the repository. -/
inductive RepoCall where
  | getOrCreateSourceMessage (source : SourceMessage)
  | saveNote (note : Note)
  | saveEventChunks (chunks : List EventChunk)
  | listSourceMessages (community : String) (limit : Option Int)
  | listRecentDrafts (community : String) (limit : Int)
  | getNoteBySourceMessageId (id : String)
  | getActiveNoteForExternalMessage (chat msg community : String)
  | countEventChunksForSource (id : String)
  | getActiveChunkForNote (noteId community : String)
  | saveEmbeddingRecords (records : List EmbeddingRecord)
  | setChunkEmbeddingStatus (id : String) (status : EmbeddingStatus)
  | markNote (state : LifecycleState) (id community : String)
  | markChunk (state : LifecycleState) (id community : String)
  | hardDeleteSourceMessage (id community : String)
  | listFailedEventChunks (community : String) (limit : Option Int)
  | saveIndexingDeadLetter (record : IndexingDeadLetter)
  | denseCandidates (queryEmbedding : Vec) (modelName : String) (scope : SearchScope)
  | sparseCandidates (queryText : String) (scope : SearchScope)
  | saveQuery (query : Query)
  | saveRetrievalHits (hits : List RetrievalHit)
  | saveAnswerTrace (trace : AnswerTrace)
  | saveChatRouteDecision (decision : ChatRouteDecision)
  | saveChatQueryRewrite (rewrite : ChatQueryRewrite)
  | saveChatKnowledgeSearch (search : ChatKnowledgeSearch)
  deriving DecidableEq

/-- What a call returns. -/
def RepoReply : RepoCall → Type
  | .getOrCreateSourceMessage _ => SourceMessage × Bool
  | .listSourceMessages .. | .listRecentDrafts .. => List SourceMessage
  | .getNoteBySourceMessageId _ | .getActiveNoteForExternalMessage .. => Option Note
  | .countEventChunksForSource _ => Nat
  | .getActiveChunkForNote .. => Option EventChunk
  | .hardDeleteSourceMessage .. => HardDeleteOutcome
  | .listFailedEventChunks .. | .denseCandidates .. | .sparseCandidates .. => List EventChunk
  | _ => Unit

namespace RepoCall

/-- What a call that succeeds does to the rows. -/
def effect : RepoCall → Tables → Tables
  | getOrCreateSourceMessage source, T =>
    match T.sourceForKey source.messageKey with
    | some _ => T
    | none => T.putSource source
  | saveNote note, T => T.putNote note
  | saveEventChunks chunks, T => T.putChunks chunks
  | saveEmbeddingRecords records, T => T.putRecords records
  | setChunkEmbeddingStatus id status, T => T.setStatus id status
  | markNote state id _, T => T.markNote state id
  | markChunk state id _, T => T.markChunk state id
  | hardDeleteSourceMessage id _, T => T.removeSource id
  | saveIndexingDeadLetter record, T => T.putDeadLetter record
  | saveQuery query, T => T.putQuery query
  | saveRetrievalHits hits, T => T.putHits hits
  | saveAnswerTrace trace, T => T.putTrace trace
  | saveChatRouteDecision decision, T => T.putDecision decision
  | saveChatQueryRewrite rewrite, T => T.putRewrite rewrite
  | saveChatKnowledgeSearch search, T => T.putSearch search
  | _, T => T

end RepoCall

end DiaryMemory
