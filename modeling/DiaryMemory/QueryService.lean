import DiaryMemory.DomainService
import DiaryMemory.Prompts
import DiaryMemory.Retrieval

/-!
# The query service

`QueryService.retrieve` embeds a question, runs both retrieval legs and fuses them;
`QueryService.answer` builds the prompt, asks the chat provider, parses and grades its
answer, and persists one query row, the retrieval hits and one answer trace whatever
the grade (`finalize`).
-/

namespace DiaryMemory

/-- Raise the exception of a pure computation. -/
def Proc.ofExcept {α : Type} : Except Exn α → Proc α
  | .ok a => pure a
  | .error e => throw e

/-- `payload.strip().rstrip("?.!,;:").strip()`. -/
def normalizeQuery (payload : String) : String :=
  PyText.strip (PyText.rstripOf "?.!,;:" (PyText.strip payload))

/-- The grade of a marker. -/
def markerToFallback : UncertaintyMarker → FallbackMode
  | .confident => .none
  | .uncertain => .weakEvidence
  | .noEvidence => .noEvidence
  | .ambiguous => .ambiguous

def FusedHit.evidence (h : FusedHit) : Evidence where
  chunkId := h.chunk.chunkId
  noteDate := h.chunk.noteDate
  chunkText := h.chunk.chunkText

/-- `assemble_answer_context`. -/
def assembleAnswerContext (query : Query) (merged : List FusedHit) : AnswerContext where
  queryId := query.queryId
  queryText := query.queryText
  orderedChunks := merged.map FusedHit.chunk
  modelName := query.modelName
  createdAt := query.createdAt

/-- The service with its clients; the bounds are those its constructor checks. -/
structure QueryService where
  embed : EmbeddingClient
  chatModelName : String
  json : JsonModule
  topK : Int := 5
  candidateK : Int := 20
  bounds : 0 < topK ∧ topK ≤ candidateK := by decide

/-- The part of an answer that depends on what the provider did. -/
structure Graded where
  fallback : FallbackMode
  traceAnswerText : String := ""
  traceModelName : String
  traceTokenCounts : List (String × Int) := []
  traceLatencyMs : Nat := 0
  traceContextChunkIds : List String := []
  answerText : Option String := none
  citedChunkIds : List String := []

namespace QueryService

variable (service : QueryService)

/-- One hybrid retrieval pass; it writes no rows. -/
def retrieve (community queryText : String) (dateRange : Option DateRange)
    (subjectScope : Option String) : Proc RetrievedCandidates := do
  if community = "" then throw (.valueError "community_id is required (R-3)")
  match ← Proc.embedQuery queryText with
  | [] => throw (.other "IndexError")
  | queryEmbedding :: _ =>
    let scope : SearchScope := { community, limit := service.candidateK, dateRange, subjectScope }
    let dense ← Proc.denseCandidates queryEmbedding service.embed.modelName scope
    let sparse ← Proc.sparseCandidates queryText scope
    let merged ← Proc.ofExcept (reciprocalRankFusion [dense, sparse] service.topK)
    pure { dense, sparse, merged, embeddingModelName := service.embed.modelName }

/-- Save a query, and the hits of what it found. -/
def saveQueryAndHits (query : Query) (modelName : String) (candidates : RetrievedCandidates) :
    Proc Unit := do
  Proc.saveQuery query
  let hits ← buildRetrievalHits query.queryId modelName query.createdAt candidates
  if hits = [] then pure () else Proc.saveRetrievalHits hits

/-- `_persist_trace`. -/
def persistTrace (query : Query) (candidates : RetrievedCandidates) : Proc Unit :=
  saveQueryAndHits query query.modelName candidates

/-- `_finalize` : persist the query, its hits and the answer trace, and build the
result. -/
def finalize (query : Query) (candidates : RetrievedCandidates) (context : AnswerContext)
    (graded : Graded) : Proc AnswerResult := do
  persistTrace { query with fallback := graded.fallback } candidates
  let answerTraceId ← Proc.uuid4
  let createdAt ← Proc.now
  Proc.saveAnswerTrace
    { answerTraceId, queryId := query.queryId, promptVersion
      contextChunkIds := graded.traceContextChunkIds, answerText := graded.traceAnswerText
      fallbackMode := graded.fallback, modelName := graded.traceModelName
      tokenCounts := graded.traceTokenCounts, latencyMs := graded.traceLatencyMs, createdAt }
  pure { fallback := graded.fallback, queryText := query.queryText
         evidence := candidates.merged.map FusedHit.evidence, context := some context
         answerText := graded.answerText, citedChunkIds := graded.citedChunkIds }

/-- Grade what the chat provider did with the prompt; other exceptions escape. -/
def grade (context : AnswerContext) (response : Except Exn ChatResponse) : Except Exn Graded :=
  match response with
  | .error (.chatProviderUnavailable _) =>
    pure { fallback := .providerUnavailable, traceModelName := service.chatModelName
           traceContextChunkIds := context.chunkIds }
  | .error e => throw e
  | .ok response =>
    match parseStructuredAnswer service.json response.rawText context with
    | .error (.answerError .structured _ _) =>
      pure { fallback := .parseFailure, traceAnswerText := response.rawText
             traceModelName := response.modelName, traceTokenCounts := response.tokenCounts
             traceLatencyMs := response.latencyMs, traceContextChunkIds := context.chunkIds }
    | .error e => throw e
    | .ok structured =>
      pure { fallback := markerToFallback structured.uncertainty
             traceAnswerText := structured.answerText, traceModelName := response.modelName
             traceTokenCounts := response.tokenCounts, traceLatencyMs := response.latencyMs
             traceContextChunkIds := context.chunkIds
             answerText := some structured.answerText
             citedChunkIds := structured.citedChunkIds }

/-- The grade of a question that reached no provider. -/
def noEvidence : Graded := { fallback := .noEvidence, traceModelName := service.chatModelName }

/-- The part of `answer` that asks the chat provider. -/
def generate (query : Query) (candidates : RetrievedCandidates) : Proc AnswerResult := do
  let context := assembleAnswerContext query candidates.merged
  let prompt ← Proc.ofExcept (buildAnswerPrompt service.json context)
  let response ← capture (Proc.complete prompt)
  let graded ← Proc.ofExcept (service.grade context response)
  finalize query candidates context graded

/-- The part of `answer` that retrieves. -/
def answerQuery (query : Query) (dateRange : Option DateRange) (subjectScope : Option String) :
    Proc AnswerResult := do
  let candidates ← service.retrieve query.communityId query.queryText dateRange subjectScope
  if candidates.merged = [] then
    finalize query candidates (assembleAnswerContext query candidates.merged) service.noEvidence
  else service.generate query candidates

/-- The part of `answer` once the query is made. -/
def answerNew (query : Query) (dateRange : Option DateRange) (subjectScope : Option String) :
    Proc AnswerResult :=
  if query.queryText = "" then
    finalize query ⟨[], [], [], query.modelName⟩ (assembleAnswerContext query []) service.noEvidence
  else service.answerQuery query dateRange subjectScope

/-- Answer a question over the notes of the community. -/
def answer (message : InboundMessage) (dateRange : Option DateRange)
    (subjectScope : Option String) : Proc AnswerResult := do
  if message.communityId = "" then
    throw (.valueError "InboundMessage.community_id is required (R-3)")
  let createdAt ← Proc.now
  let queryId ← Proc.uuid4
  let query : Query :=
    { queryId, communityId := message.communityId, queryText := normalizeQuery message.payload
      modelName := service.embed.modelName, fallback := .none, createdAt, subjectScope }
  service.answerNew query dateRange subjectScope

end QueryService

end DiaryMemory
