import DiaryMemory.Calendar
import Mathlib.Data.Rat.Defs

/-!
# Entities

The rows the stores keep, the messages the services receive and the results they
return : `InboundMessage` from `core/routing/models.py`, the entities of
`core/domain/models.py`, `EmbeddingRecord` and the routed-chat traces of
`core/chat/models.py`. Identifiers are opaque strings. Scores and vector components,
floating-point numbers in the source, are rationals; elapsed times are naturals.
-/

namespace DiaryMemory

/-! ## Enumerations -/

/-- The handler that serves a message. -/
inductive RouteKind where
  | start | help | note | ask | chat | draft | drafts | export_ | sources | delete | clarify
  | unknown
  deriving DecidableEq

/-- Why a result took the path it did. -/
inductive FallbackMode where
  | none | noEvidence | invalidInput | weakEvidence | ambiguous | providerUnavailable
  | parseFailure
  deriving DecidableEq

/-- `FallbackMode.value`. -/
def FallbackMode.value : FallbackMode → String
  | none => "none"
  | noEvidence => "no_evidence"
  | invalidInput => "invalid_input"
  | weakEvidence => "weak_evidence"
  | ambiguous => "ambiguous"
  | providerUnavailable => "provider_unavailable"
  | parseFailure => "parse_failure"

/-- Revision lifecycle of a note or chunk. Retrieval returns active rows only. -/
inductive LifecycleState where
  | active | superseded | tombstoned
  deriving DecidableEq

/-- Progress of the embedding step of a chunk. -/
inductive EmbeddingStatus where
  | pending | ready | failed
  deriving DecidableEq

/-- The retrieval pass that produced a hit. -/
inductive RetrievalLeg where
  | dense | sparse | merged
  deriving DecidableEq

/-- The answer pipeline that serves a routed-chat question. -/
inductive ChatRoute where
  | notesLookup | notesPlusModel | notesPlusKnowledge | modelOnly
  deriving DecidableEq

/-- `ChatRoute.value`. -/
def ChatRoute.value : ChatRoute → String
  | notesLookup => "notes_lookup"
  | notesPlusModel => "notes_plus_model"
  | notesPlusKnowledge => "notes_plus_knowledge"
  | modelOnly => "model_only"

/-- The routes, in the order of the enumeration. -/
def ChatRoute.members : List ChatRoute :=
  [.notesLookup, .notesPlusModel, .notesPlusKnowledge, .modelOnly]

/-! ## Messages -/

/-- How the adapter found the route of a message. -/
inductive RouteSource where
  | command | heuristic
  deriving DecidableEq

/-- A channel-neutral message. `externalChatId`, `externalMessageId` and `editSeq`
identify one delivered state of it. -/
structure InboundMessage where
  externalMessageId : String
  externalChatId : String
  externalUserId : String
  communityId : String
  route : RouteKind
  receivedAt : DateTime
  routeSource : RouteSource := .command
  payload : String := ""
  editSeq : Int := 0
  subjectId : Option String := none
  replyToExternalMessageId : Option String := none
  deriving DecidableEq

/-! ## Captured notes -/

/-- A raw message, persisted before anything is derived from it. -/
structure SourceMessage where
  sourceMessageId : String
  communityId : String
  authorUserId : String
  externalChatId : String
  externalUserId : String
  externalMessageId : String
  editSeq : Int
  rawText : String
  detectedRoute : RouteKind
  createdAt : DateTime
  deriving DecidableEq

/-- The note parsed from one source message. -/
structure Note where
  noteId : String
  sourceMessageId : String
  communityId : String
  authorUserId : String
  noteDate : Date
  noteText : String
  createdAt : DateTime
  subjectId : Option String := none
  lifecycleState : LifecycleState := .active
  supersedesNoteId : Option String := none
  deriving DecidableEq

/-- The indexed unit of a note : its whole body. -/
structure EventChunk where
  chunkId : String
  noteId : String
  sourceMessageId : String
  communityId : String
  authorUserId : String
  noteDate : Date
  eventIndex : Nat
  chunkText : String
  createdAt : DateTime
  embeddingStatus : EmbeddingStatus := .pending
  subjectId : Option String := none
  lifecycleState : LifecycleState := .active
  supersedesChunkId : Option String := none
  deriving DecidableEq

/-- An embedding vector. -/
abbrev Vec := List ℚ

/-- The embedding of one chunk under one model. -/
structure EmbeddingRecord where
  embeddingRecordId : String
  chunkId : String
  sourceMessageId : String
  communityId : String
  modelName : String
  dimension : Nat
  embedding : Vec
  createdAt : DateTime
  deriving DecidableEq

/-- A failed embedding call, recorded for inspection. -/
structure IndexingDeadLetter where
  deadLetterId : String
  sourceMessageId : String
  communityId : String
  chunkIds : List String
  modelName : String
  errorClass : String
  createdAt : DateTime
  deriving DecidableEq

/-- Outcome of an ingest. -/
structure IngestResult where
  fallback : FallbackMode
  sourceMessageId : String
  noteDate : Option Date := none
  eventsCount : Nat := 0
  invalidFirstLine : Option String := none
  replayed : Bool := false
  deriving DecidableEq

/-- Outcome of a delete. -/
structure DeleteOutcome where
  deleted : Bool
  noteDate : Option Date := none
  deriving DecidableEq

/-- Rows removed by a hard delete, by table. -/
structure HardDeleteOutcome where
  sourceMessages : Nat
  notes : Nat
  eventChunks : Nat
  embeddingRecords : Nat
  retrievalHits : Nat
  deriving DecidableEq

/-! ## Questions and answers -/

/-- Inclusive bounds on the date of a note; contradictory bounds can not be built. -/
structure DateRange where
  start : Option Date := none
  stop : Option Date := none
  ordered : ∀ s ∈ start, ∀ e ∈ stop, s ≤ e
  deriving DecidableEq

/-- A retrieved chunk with what the reply needs to cite it. -/
structure Evidence where
  chunkId : String
  noteDate : Date
  chunkText : String
  deriving DecidableEq

/-- The retrieved chunks of one question, best first. -/
structure AnswerContext where
  queryId : String
  queryText : String
  orderedChunks : List EventChunk
  modelName : String
  createdAt : DateTime
  deriving DecidableEq

/-- Outcome of a question. -/
structure AnswerResult where
  fallback : FallbackMode
  queryText : String
  evidence : List Evidence := []
  context : Option AnswerContext := none
  answerText : Option String := none
  citedChunkIds : List String := []
  modelText : Option String := none
  knowledgeText : Option String := none
  knowledgeRefs : List String := []
  deriving DecidableEq

/-- The persisted record of a question. -/
structure Query where
  queryId : String
  communityId : String
  queryText : String
  modelName : String
  fallback : FallbackMode
  createdAt : DateTime
  subjectScope : Option String := none
  deriving DecidableEq

/-- The persisted record of an answer. -/
structure AnswerTrace where
  answerTraceId : String
  queryId : String
  promptVersion : String
  contextChunkIds : List String
  answerText : String
  fallbackMode : FallbackMode
  modelName : String
  tokenCounts : List (String × Int)
  latencyMs : Nat
  createdAt : DateTime
  deriving DecidableEq

/-- One chunk seen by one retrieval pass of one question. -/
structure RetrievalHit where
  retrievalHitId : String
  queryId : String
  chunkId : String
  leg : RetrievalLeg
  rank : Nat
  score : ℚ
  modelName : String
  createdAt : DateTime
  deriving DecidableEq

/-- The persisted routing trace of a routed-chat question. -/
structure ChatRouteDecision where
  decisionId : String
  communityId : String
  questionText : String
  requestedRoute : Option ChatRoute
  effectiveRoute : ChatRoute
  classifierModelName : String
  classifierRawOutput : String
  classifierLatencyMs : Nat
  queryId : Option String
  createdAt : DateTime
  deriving DecidableEq

/-- The persisted trace of the rewrite that preceded a scoped retrieval. -/
structure ChatQueryRewrite where
  rewriteId : String
  decisionId : String
  communityId : String
  rewrittenQuery : Option String
  dateStart : Option Date
  dateEnd : Option Date
  subjectScope : Option String
  rewriterModelName : String
  rewriterRawOutput : String
  rewriterLatencyMs : Nat
  createdAt : DateTime
  deriving DecidableEq

/-- The persisted trace of an outward rewrite and knowledge search. -/
structure ChatKnowledgeSearch where
  searchId : String
  decisionId : String
  communityId : String
  outwardQuery : String
  outwardRewriterModelName : String
  outwardRewriterRawOutput : String
  outwardRewriterLatencyMs : Nat
  providerName : String
  resultCount : Nat
  rawOutput : String
  latencyMs : Nat
  createdAt : DateTime
  deriving DecidableEq

/-! ## What the providers are asked and answer -/

/-- A rendered prompt, with the chunks and knowledge references it offers. -/
structure AnswerPrompt where
  promptVersion : String
  systemText : String
  userText : String
  citedChunkIds : List String
  knowledgeRefs : List String := []
  deriving DecidableEq

/-- The answer of a chat provider. -/
structure ChatResponse where
  rawText : String
  modelName : String
  tokenCounts : List (String × Int)
  latencyMs : Nat
  deriving DecidableEq

/-- The verdict of a route classifier. -/
structure RouteClassification where
  route : ChatRoute
  rawOutput : String
  modelName : String
  latencyMs : Nat
  deriving DecidableEq

/-- A question mapped onto the arguments of the retrieval. -/
structure QueryRewrite where
  retrievalQuery : String
  dateRange : Option DateRange
  subjectScope : Option String
  rawOutput : String
  modelName : String
  latencyMs : Nat
  deriving DecidableEq

/-- A question phrased for a knowledge source. -/
structure OutwardRewrite where
  searchQuery : String
  rawOutput : String
  modelName : String
  latencyMs : Nat
  deriving DecidableEq

/-- One excerpt found by a knowledge source; `ref` is what an answer cites. -/
structure KnowledgeExcerpt where
  ref : String
  title : String
  text : String
  deriving DecidableEq

/-- The answer of a knowledge source. -/
structure KnowledgeResult where
  excerpts : List KnowledgeExcerpt
  rawOutput : String
  latencyMs : Nat
  deriving DecidableEq

/-- Outcome of a routed-chat question. -/
structure RoutedChatResult where
  requestedRoute : Option ChatRoute
  effectiveRoute : ChatRoute
  answer : AnswerResult
  decisionId : String
  deriving DecidableEq

end DiaryMemory
