import DiaryMemory.Resilience
import DiaryMemory.RoutedChat

/-!
# The real providers

The adapters of OpenAI and Tavily. Each makes one call under the bounded retries of its policy
(`requested`), declares what the client library raises in the end, and reads the output : the
arguments of a forced function call (`toolArguments`), or the body of a search. Output that can not
be used is declared with its text.
-/

namespace DiaryMemory

/-! ## The client libraries -/

/-- What an operation raises : an exception of the client library (`openai.OpenAIError`,
`httpx.HTTPError`), `TimeoutError`, or one of another class. -/
inductive SdkExn where
  | library (className message : String)
  | timeout (message : String)
  | other (className : String)

/-- `f"{type(exc).__name__}: {exc}"`, of an exception an adapter catches. -/
def SdkExn.described : SdkExn → Option String
  | library className message => some (className ++ ": " ++ message)
  | timeout message => some ("TimeoutError: " ++ message)
  | other _ => none

/-- The exception, where nothing catches it. -/
def SdkExn.raw : SdkExn → Exn
  | library className _ => .other className
  | timeout _ => .other "TimeoutError"
  | other className => .other className

/-- What the library would give on each attempt of a call, and the milliseconds the call takes. -/
structure ProviderCall (T : Type) where
  attempts : ℕ → Attempt SdkExn T
  latencyMs : Nat

/-- The errors of the retry loop itself. -/
def RetryExn.raw : RetryExn SdkExn → Exn
  | operation exc => exc.raw
  | overflowError _ => .other "OverflowError"
  | valueError message => .valueError message
  | sleepError exc => .other exc.className
  | assertionError => .assertionError

/-- The outcome of a call whose library errors are declared. -/
def requested {T : Type} (policy : RetryPolicy) (call : ProviderCall T)
    (unavailable : String → Exn) : Except Exn T :=
  match (runWithRetries policy call.attempts).1 with
  | .ok result => pure result
  | .error (.operation exc) =>
    match exc.described with
    | some text => throw (unavailable text)
    | none => throw exc.raw
  | .error e => throw e.raw

/-! ## Completions -/

/-- A tool call; one that is no function call has no arguments, and a function may have none. -/
structure ToolCall where
  function : Option (Option String)

/-- `tool_calls or []`, and the content. -/
structure CompletionMessage where
  content : Option String
  toolCalls : List ToolCall := []

/-- A completion, with its prompt tokens and completion tokens where they are known. -/
structure ChatCompletion where
  choices : List CompletionMessage
  usage : Option (Int × Int) := none

/-- `response.choices[0].message`. -/
def ChatCompletion.message (completion : ChatCompletion) : Except Exn CompletionMessage :=
  match completion.choices with
  | [] => throw (.other "IndexError")
  | choice :: _ => pure choice

/-- The arguments of the first tool call. -/
def toolArguments (kind : ProviderKind) (completion : ChatCompletion) : Except Exn String := do
  let message ← completion.message
  match message.toolCalls with
  | [] => throw (.providerOutput kind (message.content.getD ""))
  | call :: _ =>
    match call.function with
    | none => throw (.providerOutput kind (message.content.getD ""))
    | some arguments => pure (arguments.getD "")

/-- A forced function call : the arguments, and what is read from them. -/
def forcedCall {α : Type} (kind : ProviderKind) (read : String → Except Exn α)
    (policy : RetryPolicy) (call : ProviderCall ChatCompletion) : Except Exn (String × α) := do
  let response ← requested policy call fun _ => .providerUnavailable kind
  let arguments ← toolArguments kind response
  let a ← read arguments
  pure (arguments, a)

/-! ## Chat -/

structure OpenAIChatClient where
  modelName : String
  retryPolicy : RetryPolicy

/-- `complete`. -/
def OpenAIChatClient.complete (client : OpenAIChatClient) (call : ProviderCall ChatCompletion) :
    Except Exn ChatResponse := do
  let response ← requested client.retryPolicy call fun text => .chatProviderUnavailable
    ("OpenAI chat call failed (bounded retry: max " ++ toString client.retryPolicy.maxAttempts ++
      " attempts): " ++ text)
  let message ← response.message
  pure { rawText := message.content.getD "", modelName := client.modelName
         tokenCounts := match response.usage with
           | none => []
           | some (prompt, completion) => [("prompt", prompt), ("completion", completion)]
         latencyMs := call.latencyMs }

/-! ## The route classifier -/

/-- `payload.get(name)` of a dict. -/
def Json.get? (name : String) : Json → Option Json
  | .dict fields => fields.lookup name
  | _ => none

/-- `ChatRoute(value)`. -/
def ChatRoute.ofValue? (value : String) : Option ChatRoute :=
  ChatRoute.members.find? fun route => route.value = value

/-- The route the arguments name. -/
def readRoute (json : JsonModule) (arguments : String) : Except Exn ChatRoute :=
  match json.loads arguments with
  | .error _ => throw (.providerOutput .classifier arguments)
  | .ok payload =>
    match payload.get? "route" with
    | some (.str value) =>
      match ChatRoute.ofValue? value with
      | some route => pure route
      | none => throw (.providerOutput .classifier arguments)
    | _ => throw (.providerOutput .classifier arguments)

structure OpenAIRouteClassifier where
  modelName : String
  retryPolicy : RetryPolicy

/-- `classify`. -/
def OpenAIRouteClassifier.classify (client : OpenAIRouteClassifier) (json : JsonModule)
    (call : ProviderCall ChatCompletion) : Except Exn RouteClassification := do
  let (arguments, route) ← forcedCall .classifier (readRoute json) client.retryPolicy call
  pure { route, rawOutput := arguments, modelName := client.modelName, latencyMs := call.latencyMs }

/-! ## The query rewriter -/

/-- `_parse_iso_date`. -/
def parseIsoDate (rawOutput : String) : Option Json → Except Exn (Option Date)
  | none | some .null => pure none
  | some (.str text) =>
    match Date.fromisoformat text with
    | some d => pure (some d)
    | none => throw (.providerOutput .rewriter rawOutput)
  | some _ => throw (.providerOutput .rewriter rawOutput)

/-- `DateRange(start=start, end=stop)`, where a bound is given. -/
def dateRangeOf (rawOutput : String) (start stop : Option Date) : Except Exn (Option DateRange) :=
  if start = none ∧ stop = none then pure none
  else if h : ∀ s ∈ start, ∀ e ∈ stop, s ≤ e then pure (some ⟨start, stop, h⟩)
  else throw (.providerOutput .rewriter rawOutput)

/-- The query and the range the arguments name. -/
def readRewrite (json : JsonModule) (arguments : String) :
    Except Exn (String × Option DateRange) :=
  match json.loads arguments with
  | .ok (.dict fields) =>
    match fields.lookup "retrieval_query" with
    | some (.str query) => do
      if PyText.strip query = "" then throw (.providerOutput .rewriter arguments)
      let start ← parseIsoDate arguments (fields.lookup "date_from")
      let stop ← parseIsoDate arguments (fields.lookup "date_to")
      let dateRange ← dateRangeOf arguments start stop
      pure (PyText.strip query, dateRange)
    | _ => throw (.providerOutput .rewriter arguments)
  | _ => throw (.providerOutput .rewriter arguments)

structure OpenAIQueryRewriter where
  modelName : String
  retryPolicy : RetryPolicy

/-- `rewrite`. -/
def OpenAIQueryRewriter.rewrite (client : OpenAIQueryRewriter) (json : JsonModule)
    (call : ProviderCall ChatCompletion) : Except Exn QueryRewrite := do
  let (arguments, retrievalQuery, dateRange) ←
    forcedCall .rewriter (readRewrite json) client.retryPolicy call
  pure { retrievalQuery, dateRange, subjectScope := none, rawOutput := arguments
         modelName := client.modelName, latencyMs := call.latencyMs }

/-! ## The outward rewriter -/

/-- The query the arguments name. -/
def readOutward (json : JsonModule) (arguments : String) : Except Exn String :=
  match json.loads arguments with
  | .ok (.dict fields) =>
    match fields.lookup "search_query" with
    | some (.str query) => do
      if PyText.strip query = "" then throw (.providerOutput .outwardRewriter arguments)
      pure (PyText.strip query)
    | _ => throw (.providerOutput .outwardRewriter arguments)
  | _ => throw (.providerOutput .outwardRewriter arguments)

structure OpenAIOutwardRewriter where
  modelName : String
  retryPolicy : RetryPolicy

/-- `rewrite_outward`. -/
def OpenAIOutwardRewriter.rewriteOutward (client : OpenAIOutwardRewriter) (json : JsonModule)
    (call : ProviderCall ChatCompletion) : Except Exn OutwardRewrite := do
  let (arguments, searchQuery) ←
    forcedCall .outwardRewriter (readOutward json) client.retryPolicy call
  pure { searchQuery, rawOutput := arguments, modelName := client.modelName
         latencyMs := call.latencyMs }

/-! ## The knowledge source -/

/-- The excerpt of a search result. -/
def readEntry (body : String) : Json → Except Exn KnowledgeExcerpt
  | .dict fields =>
    match fields.lookup "url", fields.lookup "title", fields.lookup "content" with
    | some (.str url), some (.str title), some (.str content) =>
      if url = "" then throw (.providerOutput .knowledge body)
      else pure ⟨url, title, content⟩
    | _, _, _ => throw (.providerOutput .knowledge body)
  | _ => throw (.providerOutput .knowledge body)

/-- The excerpts of the first results. -/
def readResults (json : JsonModule) (maxResults : Nat) (body : String) :
    Except Exn (List KnowledgeExcerpt) :=
  match json.loads body with
  | .ok (.dict fields) =>
    match fields.lookup "results" with
    | some (.list results) => (results.take maxResults).mapM (readEntry body)
    | _ => throw (.providerOutput .knowledge body)
  | _ => throw (.providerOutput .knowledge body)

/-- `max_results` is a positive number, as its constructor checks. -/
structure TavilyKnowledgeSource where
  retryPolicy : RetryPolicy
  maxResults : Nat
  maxResults_pos : 1 ≤ maxResults

/-- `search`; the call gives the body of a response. -/
def TavilyKnowledgeSource.search (source : TavilyKnowledgeSource) (json : JsonModule)
    (call : ProviderCall String) : Except Exn KnowledgeResult := do
  let body ← requested source.retryPolicy call fun _ => .providerUnavailable .knowledge
  let excerpts ← readResults json source.maxResults body
  pure { excerpts, rawOutput := body, latencyMs := call.latencyMs }

/-! ## Embeddings -/

/-- `dimension` is a positive number, as its constructor checks. -/
structure OpenAIEmbeddingClient where
  modelName : String
  dimension : Nat
  retryPolicy : RetryPolicy
  dimension_pos : 0 < dimension

/-- `embed` : what the library raises leaves as it is. -/
def OpenAIEmbeddingClient.embed (client : OpenAIEmbeddingClient) (texts : List String)
    (call : ProviderCall (List Vec)) : Except Exn (List Vec) :=
  if texts = [] then pure []
  else
    match (runWithRetries client.retryPolicy call.attempts).1 with
    | .error e => throw e.raw
    | .ok vectors => do
      if vectors.length ≠ texts.length then
        throw (.runtimeError ("OpenAI returned " ++ toString vectors.length ++ " embeddings for " ++
          toString texts.length ++ " inputs"))
      match vectors.find? fun vector => vector.length ≠ client.dimension with
      | some vector =>
        throw (.runtimeError ("OpenAI returned vector of dim " ++ toString vector.length ++
          ", expected " ++ toString client.dimension))
      | none => pure vectors

end DiaryMemory
