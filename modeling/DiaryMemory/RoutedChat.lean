import DiaryMemory.QueryService

/-!
# The routed chat

`RoutedChatService.chat` asks a classifier for one of four routes and answers through
it; whatever can not be dispatched falls to the notes lookup. The mixed routes rewrite
the question, retrieve, and generate one answer with a segment per plane; the model-only
route retrieves nothing. Every call persists one routing decision, and the traces of the
steps the route took.
-/

namespace DiaryMemory

/-- What one rewrite attempt produced, for the trace row. -/
structure RewriteCapture where
  rewrittenQuery : Option String := none
  dateRange : Option DateRange := none
  subjectScope : Option String := none
  modelName : String
  rawOutput : String := ""
  latencyMs : Nat := 0

/-- What one outward rewrite and search produced, for the trace row. -/
structure KnowledgeCapture where
  outwardQuery : String
  outwardModelName : String
  outwardRawOutput : String
  outwardLatencyMs : Nat
  resultCount : Nat
  rawOutput : String
  latencyMs : Nat

/-- The grade of a notes marker. -/
def notesMarkerToFallback : NotesUncertainty → FallbackMode
  | .confident => .none
  | .uncertain => .weakEvidence
  | .noEvidence => .noEvidence

/-- `text or None`. -/
def orNone (text : String) : Option String := if text = "" then none else some text

/-- What a generation produced, for the trace and the result of a route. -/
structure Generation where
  fallback : FallbackMode
  answerText : Option String := none
  modelText : Option String := none
  knowledgeText : Option String := none
  knowledgeRefs : List String := []
  citedChunkIds : List String := []
  traceAnswerText : String := ""
  tokenCounts : List (String × Int) := []
  latencyMs : Nat := 0

/-- Grade what the chat provider did : unavailable, not parsed by `parse` with an error
of `family`, or parsed. Other exceptions escape. -/
def Generation.grade {α : Type} (family : AnswerFamily) (parse : String → Except Exn α)
    (failed : Generation) (parsed : ChatResponse → α → Generation) :
    Except Exn ChatResponse → Except Exn Generation
  | .error (.chatProviderUnavailable _) => pure { failed with fallback := .providerUnavailable }
  | .error e => throw e
  | .ok response =>
    match parse response.rawText with
    | .ok a => pure (parsed response a)
    | .error (.answerError f name message) =>
      if f = family then
        pure { failed with
          fallback := .parseFailure, traceAnswerText := response.rawText
          tokenCounts := response.tokenCounts, latencyMs := response.latencyMs }
      else throw (.answerError f name message)
    | .error e => throw e

/-- The service with its clients; a rewriter is known by its model name, a knowledge
source by its provider name. -/
structure RoutedChatService where
  classifierModelName : String
  query : QueryService
  chatModelName : String
  rewriter : Option String := none
  knowledgeSource : Option String := none
  outwardRewriter : Option String := none

namespace RoutedChatService

variable (service : RoutedChatService)

def json : JsonModule := service.query.json

/-- `_rewrite`. -/
def rewrite (question : String) : Proc RewriteCapture :=
  match service.rewriter with
  | none => pure { modelName := "" }
  | some modelName => do
    let now ← Proc.now
    match ← capture (Proc.rewrite question now.date) with
    | .error (.providerOutput .rewriter rawOutput) => pure { modelName, rawOutput }
    | .error (.providerUnavailable .rewriter) => pure { modelName }
    | .error e => throw e
    | .ok rewrite =>
      let rewrittenQuery := normalizeQuery rewrite.retrievalQuery
      if rewrittenQuery = "" then
        pure { modelName := rewrite.modelName, rawOutput := rewrite.rawOutput
               latencyMs := rewrite.latencyMs }
      else
        pure { rewrittenQuery := some rewrittenQuery, dateRange := rewrite.dateRange
               subjectScope := rewrite.subjectScope, modelName := rewrite.modelName
               rawOutput := rewrite.rawOutput, latencyMs := rewrite.latencyMs }

/-- The query the enrichment retrieval runs with. -/
def retrievalQuery (capture : RewriteCapture) (question : String) : String :=
  capture.rewrittenQuery.getD (normalizeQuery question)

/-- Persist the query, hits and trace of a mixed route, and build its result. -/
def finishMixed (query : Query) (candidates : RetrievedCandidates) (context : AnswerContext)
    (promptVersion : String) (g : Generation) : Proc AnswerResult := do
  QueryService.saveQueryAndHits { query with fallback := g.fallback }
    candidates.embeddingModelName candidates
  let answerTraceId ← Proc.uuid4
  Proc.saveAnswerTrace
    { answerTraceId, queryId := query.queryId, promptVersion
      contextChunkIds := context.chunkIds, answerText := g.traceAnswerText
      fallbackMode := g.fallback, modelName := service.chatModelName
      tokenCounts := g.tokenCounts, latencyMs := g.latencyMs, createdAt := query.createdAt }
  pure { fallback := g.fallback, queryText := query.queryText
         evidence := candidates.merged.map FusedHit.evidence, context := some context
         answerText := g.answerText, citedChunkIds := g.citedChunkIds, modelText := g.modelText
         knowledgeText := g.knowledgeText, knowledgeRefs := g.knowledgeRefs }

/-- The generation of `_answer_notes_plus_model`. -/
def gradeNotesPlusModel (context : AnswerContext) :
    Except Exn ChatResponse → Except Exn Generation :=
  Generation.grade .notesPlusModel
    (fun raw => parseNotesPlusModelAnswer service.json raw context) { fallback := .none }
    fun response parsed =>
      { fallback := notesMarkerToFallback parsed.notesUncertainty
        answerText := orNone parsed.notesText, modelText := some parsed.modelText
        citedChunkIds := parsed.citedChunkIds, traceAnswerText := response.rawText
        tokenCounts := response.tokenCounts, latencyMs := response.latencyMs }

/-- `_answer_notes_plus_model`. -/
def answerNotesPlusModel (message : InboundMessage) (question : String)
    (subjectScope : Option String) : Proc (AnswerResult × String × RewriteCapture) := do
  let createdAt ← Proc.now
  let queryId ← Proc.uuid4
  let rewritten ← service.rewrite question
  let candidates ← service.query.retrieve message.communityId (retrievalQuery rewritten question)
    rewritten.dateRange subjectScope
  let query : Query :=
    { queryId, communityId := message.communityId, queryText := question
      modelName := candidates.embeddingModelName, fallback := .none, createdAt, subjectScope }
  let context := assembleAnswerContext query candidates.merged
  let prompt ← Proc.ofExcept (buildNotesPlusModelPrompt service.json context)
  let response ← capture (Proc.complete prompt)
  let g ← Proc.ofExcept (service.gradeNotesPlusModel context response)
  let result ← service.finishMixed query candidates context notesPlusModelPromptVersion g
  pure (result, queryId, rewritten)

/-- What one outward rewrite produced. -/
structure OutwardCapture where
  searchQuery : Option String := none
  modelName : String := ""
  rawOutput : String := ""
  latencyMs : Nat := 0

/-- `_rewrite_outward`. -/
def rewriteOutward (question : String) (notesContext : List String) : Proc OutwardCapture :=
  match service.outwardRewriter with
  | none => pure {}
  | some modelName => do
    match ← capture (Proc.rewriteOutward question notesContext) with
    | .error (.providerOutput .outwardRewriter rawOutput) => pure { modelName, rawOutput }
    | .error (.providerUnavailable .outwardRewriter) => pure { modelName }
    | .error e => throw e
    | .ok outward =>
      let searchQuery := PyText.strip outward.searchQuery
      pure { searchQuery := orNone searchQuery, modelName := outward.modelName
             rawOutput := outward.rawOutput, latencyMs := outward.latencyMs }

/-- Search the knowledge source; its declared failures leave no excerpts. -/
def searchKnowledge (query : String) : Proc KnowledgeResult := do
  match ← capture (Proc.search query) with
  | .error (.providerOutput .knowledge rawOutput) => pure ⟨[], rawOutput, 0⟩
  | .error (.providerUnavailable .knowledge) => pure ⟨[], "", 0⟩
  | .error e => throw e
  | .ok result => pure result

/-- The generation of `_answer_notes_plus_knowledge`. -/
def gradeNotesPlusKnowledge (context : AnswerContext) (knowledgeRefs : List String) :
    Except Exn ChatResponse → Except Exn Generation :=
  Generation.grade .notesPlusKnowledge
    (fun raw => parseNotesPlusKnowledgeAnswer service.json raw context knowledgeRefs)
    { fallback := .none }
    fun response parsed =>
      { fallback := notesMarkerToFallback parsed.notesUncertainty
        answerText := orNone parsed.notesText, modelText := some parsed.modelText
        knowledgeText := orNone parsed.knowledgeText
        knowledgeRefs := parsed.citedKnowledgeRefs, citedChunkIds := parsed.citedChunkIds
        traceAnswerText := response.rawText, tokenCounts := response.tokenCounts
        latencyMs := response.latencyMs }

/-- `_answer_notes_plus_knowledge`. -/
def answerNotesPlusKnowledge (message : InboundMessage) (question : String)
    (subjectScope : Option String) :
    Proc (AnswerResult × String × RewriteCapture × KnowledgeCapture) := do
  if service.knowledgeSource = none then
    throw (.runtimeError "notes_plus_knowledge dispatched without a knowledge source")
  let createdAt ← Proc.now
  let queryId ← Proc.uuid4
  let rewritten ← service.rewrite question
  let candidates ← service.query.retrieve message.communityId (retrievalQuery rewritten question)
    rewritten.dateRange subjectScope
  let query : Query :=
    { queryId, communityId := message.communityId, queryText := question
      modelName := candidates.embeddingModelName, fallback := .none, createdAt, subjectScope }
  let context := assembleAnswerContext query candidates.merged
  let outward ← service.rewriteOutward question (context.orderedChunks.map EventChunk.chunkText)
  let searchedQuery := outward.searchQuery.getD question
  let found ← searchKnowledge searchedQuery
  let prompt ← Proc.ofExcept (buildNotesPlusKnowledgePrompt service.json context found.excerpts)
  let response ← capture (Proc.complete prompt)
  let g ← Proc.ofExcept (service.gradeNotesPlusKnowledge context prompt.knowledgeRefs response)
  let result ← service.finishMixed query candidates context notesPlusKnowledgePromptVersion g
  pure (result, queryId, rewritten,
    { outwardQuery := searchedQuery, outwardModelName := outward.modelName
      outwardRawOutput := outward.rawOutput, outwardLatencyMs := outward.latencyMs
      resultCount := found.excerpts.length, rawOutput := found.rawOutput
      latencyMs := found.latencyMs })

/-- The generation of `_answer_model_only`; its failures answer with an empty text. -/
def gradeModelOnly : Except Exn ChatResponse → Except Exn Generation :=
  Generation.grade .modelOnly (parseModelOnlyAnswer service.json)
    { fallback := .none, answerText := some "" }
    fun response parsed =>
      { fallback := .none, answerText := some parsed, traceAnswerText := parsed
        tokenCounts := response.tokenCounts, latencyMs := response.latencyMs }

/-- `_answer_model_only`. -/
def answerModelOnly (message : InboundMessage) (question : String) :
    Proc (AnswerResult × String) := do
  let createdAt ← Proc.now
  let queryId ← Proc.uuid4
  let response ← capture (Proc.complete (buildModelOnlyPrompt question))
  let g ← Proc.ofExcept (service.gradeModelOnly response)
  Proc.saveQuery
    { queryId, communityId := message.communityId, queryText := question
      modelName := service.chatModelName, fallback := g.fallback, createdAt }
  let answerTraceId ← Proc.uuid4
  Proc.saveAnswerTrace
    { answerTraceId, queryId, promptVersion := modelOnlyPromptVersion, contextChunkIds := []
      answerText := g.traceAnswerText, fallbackMode := g.fallback
      modelName := service.chatModelName, tokenCounts := g.tokenCounts, latencyMs := g.latencyMs
      createdAt }
  pure ({ fallback := g.fallback, queryText := question, answerText := g.answerText }, queryId)

/-- What the classifier step leaves : its verdict, its output and its latency. -/
structure Classified where
  requested : Option ChatRoute := none
  rawOutput : String := ""
  latencyMs : Nat := 0

/-- The classifier step; its declared failures leave no verdict. -/
def classify (question : String) : Proc Classified :=
  if question = "" then pure {}
  else do
    match ← capture (Proc.classify question) with
    | .error (.providerOutput .classifier rawOutput) => pure { rawOutput }
    | .error (.providerUnavailable .classifier) => pure {}
    | .error e => throw e
    | .ok c => pure { requested := some c.route, rawOutput := c.rawOutput, latencyMs := c.latencyMs }

/-- The route that answers. -/
def effectiveRoute : Option ChatRoute → ChatRoute
  | some .notesLookup => .notesLookup
  | some .modelOnly => .modelOnly
  | some .notesPlusModel => .notesPlusModel
  | some .notesPlusKnowledge =>
    if service.knowledgeSource.isSome then .notesPlusKnowledge else .notesLookup
  | none => .notesLookup

/-- What a route leaves for the traces. -/
structure Routed where
  answer : AnswerResult
  queryId : Option String
  rewrite : Option RewriteCapture := none
  knowledge : Option KnowledgeCapture := none

/-- The result of a call whose search seam is not there. -/
def retrievalUnavailable (question : String) : Routed where
  answer := { fallback := .noEvidence, queryText := question }
  queryId := none

/-- `except NotImplementedError`. -/
def orUnavailable (question : String) (p : Proc Routed) : Proc Routed := do
  match ← capture p with
  | .error (.notImplementedError _) => pure (retrievalUnavailable question)
  | .error e => throw e
  | .ok r => pure r

/-- Answer through the effective route. -/
def answerBy (message : InboundMessage) (question : String) (subjectScope : Option String) :
    ChatRoute → Proc Routed
  | .modelOnly => do
    let (answer, queryId) ← service.answerModelOnly message question
    pure { answer, queryId := some queryId }
  | .notesPlusModel => orUnavailable question do
    let (answer, queryId, rewrite) ← service.answerNotesPlusModel message question subjectScope
    pure { answer, queryId := some queryId, rewrite := some rewrite }
  | .notesPlusKnowledge => orUnavailable question do
    let (answer, queryId, rewrite, knowledge) ←
      service.answerNotesPlusKnowledge message question subjectScope
    pure { answer, queryId := some queryId, rewrite := some rewrite, knowledge := some knowledge }
  | .notesLookup => orUnavailable question do
    let answer ← service.query.answer message none subjectScope
    pure { answer, queryId := answer.context.map AnswerContext.queryId }

/-- The rewrite row of a call, written after its decision. -/
def saveRewrite (decisionId community : String) : Option RewriteCapture → Proc Unit
  | none => pure ()
  | some c => do
    let rewriteId ← Proc.uuid4
    let createdAt ← Proc.now
    Proc.saveChatQueryRewrite
      { rewriteId, decisionId, communityId := community, rewrittenQuery := c.rewrittenQuery
        dateStart := c.dateRange.bind DateRange.start, dateEnd := c.dateRange.bind DateRange.stop
        subjectScope := c.subjectScope, rewriterModelName := c.modelName
        rewriterRawOutput := c.rawOutput, rewriterLatencyMs := c.latencyMs, createdAt }

/-- The knowledge row of a call, written after its decision. -/
def saveKnowledge (decisionId community : String) : Option KnowledgeCapture → Proc Unit
  | none => pure ()
  | some c => do
    let searchId ← Proc.uuid4
    let createdAt ← Proc.now
    Proc.saveChatKnowledgeSearch
      { searchId, decisionId, communityId := community, outwardQuery := c.outwardQuery
        outwardRewriterModelName := c.outwardModelName
        outwardRewriterRawOutput := c.outwardRawOutput
        outwardRewriterLatencyMs := c.outwardLatencyMs
        providerName := service.knowledgeSource.getD "", resultCount := c.resultCount
        rawOutput := c.rawOutput, latencyMs := c.latencyMs, createdAt }

/-- Classify and answer a question. -/
def chat (message : InboundMessage) (subjectScope : Option String) : Proc RoutedChatResult := do
  let community := message.communityId
  if community = "" then throw (.valueError "InboundMessage.community_id is required (R-3)")
  let question := PyText.strip message.payload
  let classified ← classify question
  let effective := service.effectiveRoute classified.requested
  let routed ← service.answerBy message question subjectScope effective
  let decisionId ← Proc.uuid4
  let createdAt ← Proc.now
  Proc.saveChatRouteDecision
    { decisionId, communityId := community, questionText := question
      requestedRoute := classified.requested, effectiveRoute := effective
      classifierModelName := service.classifierModelName
      classifierRawOutput := classified.rawOutput, classifierLatencyMs := classified.latencyMs
      queryId := routed.queryId, createdAt }
  saveRewrite decisionId community routed.rewrite
  service.saveKnowledge decisionId community routed.knowledge
  pure ⟨classified.requested, effective, routed.answer, decisionId⟩

end RoutedChatService

end DiaryMemory
