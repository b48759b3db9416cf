import DiaryMemory.Decoding
import DiaryMemory.RoutedChat

/-!
# The mock providers

The providers of a deployment without keys : each answers by itself, in a JSON text of the shape
the real provider is asked for. `MockChatClient.complete` has one answer for each prompt version.
-/

namespace DiaryMemory

open JsonText (Value)

/-! ## Payloads -/

/-- `json.dumps(payload, sort_keys=True)`. -/
def dumpsSorted (ensureAscii : Bool) (payload : Value) : String :=
  JsonText.dumps ⟨ensureAscii, none⟩ payload.sortKeys

/-- A list of strings, as a payload holds it. -/
def Value.strings (texts : List String) : Value := .list (texts.map .str)

/-! ## The chat client -/

structure MockChatClient where
  modelName : String := "mock"

namespace MockChatClient

variable (client : MockChatClient)

def modelOnlyAnswer : String := "Mock model-knowledge answer (no notes consulted)."

def notesPlusModelText : String := "Mock general-knowledge segment."

/-- The answer with this payload. -/
def reply (prompt : AnswerPrompt) (payload : Value) : ChatResponse :=
  let rawText := dumpsSorted false payload
  { rawText, modelName := client.modelName
    tokenCounts := [("prompt", prompt.systemText.length + prompt.userText.length),
      ("completion", rawText.length)]
    latencyMs := 0 }

/-- The text of an answer that cites these chunks. -/
def groundedText (cited : List String) : String :=
  "Mock answer grounded in " ++ toString cited.length ++ " diary chunk(s): " ++
    ", ".intercalate cited

def structuredPayload (cited : List String) : Value :=
  let (answerText, uncertainty) :=
    if cited = [] then ("No diary chunks were retrieved; cannot answer.", "no_evidence")
    else (groundedText cited, "confident")
  .dict [("answer_text", .str answerText), ("cited_chunk_ids", Value.strings cited),
    ("uncertainty", .str uncertainty)]

/-- The text of a notes segment that cites these chunks. -/
def notesText (cited : List String) : String :=
  "Mock notes segment grounded in " ++ toString cited.length ++ " chunk(s): " ++
    ", ".intercalate cited

def notesPlusModelPayload (cited : List String) : Value :=
  if cited = [] then
    .dict [("notes_text", .str ""), ("cited_chunk_ids", Value.strings []),
      ("model_text", .str notesPlusModelText), ("notes_uncertainty", .str "no_evidence")]
  else
    .dict [("notes_text", .str (notesText cited)), ("cited_chunk_ids", Value.strings cited),
      ("model_text", .str notesPlusModelText), ("notes_uncertainty", .str "confident")]

/-- The text of a knowledge segment that cites these excerpts. -/
def knowledgeText (refs : List String) : String :=
  "Mock knowledge segment grounded in " ++ toString refs.length ++ " excerpt(s): " ++
    ", ".intercalate refs

def notesPlusKnowledgePayload (cited refs : List String) : Value :=
  let notes : List (String × Value) :=
    if cited = [] then
      [("notes_text", .str ""), ("cited_chunk_ids", Value.strings []),
        ("notes_uncertainty", .str "no_evidence")]
    else
      [("notes_text", .str (notesText cited)), ("cited_chunk_ids", Value.strings cited),
        ("notes_uncertainty", .str "confident")]
  let knowledge : List (String × Value) :=
    if refs = [] then [("knowledge_text", .str ""), ("cited_knowledge_refs", Value.strings [])]
    else [("knowledge_text", .str (knowledgeText refs)),
      ("cited_knowledge_refs", Value.strings refs)]
  .dict (notes ++ knowledge ++ [("model_text", .str notesPlusModelText)])

def modelOnlyPayload : Value := .dict [("answer_text", .str modelOnlyAnswer)]

/-- `complete`. -/
def complete (prompt : AnswerPrompt) : ChatResponse :=
  if prompt.promptVersion = modelOnlyPromptVersion then client.reply prompt modelOnlyPayload
  else if prompt.promptVersion = notesPlusModelPromptVersion then
    client.reply prompt (notesPlusModelPayload prompt.citedChunkIds)
  else if prompt.promptVersion = notesPlusKnowledgePromptVersion then
    client.reply prompt (notesPlusKnowledgePayload prompt.citedChunkIds prompt.knowledgeRefs)
  else client.reply prompt (structuredPayload prompt.citedChunkIds)

end MockChatClient

/-! ## The optional providers -/

/-- `lower` stands for `str.lower`, of which the letters of ASCII are assumed : what it makes of
other scripts is left open. -/
structure MockRouteClassifier where
  modelName : String := "mock"
  defaultRoute : ChatRoute := .notesLookup
  lower : String → String
  lower_ascii : ∀ s, (∀ c ∈ s.toList, c.val < 128) → (lower s).toList = s.toList.map Char.toLower

/-- `classify` : the first route whose name is in the question. -/
def MockRouteClassifier.classify (client : MockRouteClassifier) (question : String) :
    RouteClassification :=
  let lowered := client.lower question
  let selected := (ChatRoute.members.find? fun route =>
    route.value.toList <:+: lowered.toList).getD client.defaultRoute
  { route := selected, rawOutput := dumpsSorted true (.dict [("route", .str selected.value)])
    modelName := client.modelName, latencyMs := 0 }

/-- Questions in ASCII that differ in case alone are classified alike. -/
theorem MockRouteClassifier.classify_congr (client : MockRouteClassifier) {q q' : String}
    (hq : ∀ c ∈ q.toList, c.val < 128) (hq' : ∀ c ∈ q'.toList, c.val < 128)
    (h : q.toList.map Char.toLower = q'.toList.map Char.toLower) :
    client.classify q = client.classify q' := by
  have hlower : client.lower q = client.lower q' := by
    apply String.toList_inj.mp
    rw [client.lower_ascii q hq, client.lower_ascii q' hq', h]
  rw [classify, classify, hlower]

structure MockQueryRewriter where
  modelName : String := "mock"
  rewriteTo : Option String := none
  dateRange : Option DateRange := none

/-- A date bound, when there is one. -/
def boundField (name : String) (bound : Option Date) : List (String × Value) :=
  match bound with
  | none => []
  | some d => [(name, .str d.isoformat)]

/-- `rewrite`. -/
def MockQueryRewriter.rewrite (client : MockQueryRewriter) (question : String) : QueryRewrite :=
  let retrievalQuery := client.rewriteTo.getD question
  { retrievalQuery, dateRange := client.dateRange, subjectScope := none
    rawOutput := dumpsSorted true (.dict (("retrieval_query", .str retrievalQuery) ::
      (boundField "date_from" (client.dateRange.bind DateRange.start) ++
        boundField "date_to" (client.dateRange.bind DateRange.stop))))
    modelName := client.modelName, latencyMs := 0 }

structure MockOutwardRewriter where
  modelName : String := "mock"
  rewriteTo : Option String := none

/-- `rewrite_outward`. -/
def MockOutwardRewriter.rewriteOutward (client : MockOutwardRewriter) (question : String) :
    OutwardRewrite :=
  let searchQuery := client.rewriteTo.getD question
  { searchQuery, rawOutput := dumpsSorted true (.dict [("search_query", .str searchQuery)])
    modelName := client.modelName, latencyMs := 0 }

structure MockKnowledgeSource where
  providerName : String := "mock"
  excerpts : List KnowledgeExcerpt := []

/-- An excerpt, as a search provider lists it. -/
def KnowledgeExcerpt.entry (e : KnowledgeExcerpt) : Value :=
  .dict [("url", .str e.ref), ("title", .str e.title), ("content", .str e.text)]

/-- `search`. -/
def MockKnowledgeSource.search (source : MockKnowledgeSource) (query : String) : KnowledgeResult where
  excerpts := source.excerpts
  rawOutput := dumpsSorted false (.dict [("query", .str query),
    ("results", .list (source.excerpts.map KnowledgeExcerpt.entry))])
  latencyMs := 0

end DiaryMemory
