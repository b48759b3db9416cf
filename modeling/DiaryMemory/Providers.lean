import DiaryMemory.Adapters
import DiaryMemory.Backoff
import DiaryMemory.Provenance
import DiaryMemory.Segments

/-!
# What the real providers declare

An adapter ends as the last attempt of its call did, where every wait that its policy asks for is
slept (`requested_eq`). What it then raises is declared, if the library raises errors of its own
only and a completion has a choice; what it embeds has one vector of its dimension for each text
(`OpenAIEmbeddingClient.embed_ok`). So an environment whose providers are the adapters declares
what the services rely on (`Providers.declared`).
-/

namespace DiaryMemory

/-! ## Requests -/

section Requested

variable {T : Type} {policy : RetryPolicy} {call : ProviderCall T} {unavailable : String → Exn}

/-- An outcome of a call, its library errors declared. -/
def settled (unavailable : String → Exn) : Except SdkExn T → Except Exn T
  | .ok result => .ok result
  | .error exc => .error ((exc.described.map unavailable).getD exc.raw)

/-- Every wait that the policy asks for is slept. -/
def ProviderCall.Waits (policy : RetryPolicy) (call : ProviderCall T) : Prop :=
  ∀ k, 1 ≤ k → k < policy.maxAttempts →
    (∀ j, 1 ≤ j → j ≤ k → ∃ exc, (call.attempts j).Retried exc) → (call.attempts k).Waits policy k

/-- The loop leaves what its last attempt gave. -/
theorem ProviderCall.Waits.leaves (h : call.Waits policy) :
    ∃ n, 1 ≤ n ∧ n ≤ policy.maxAttempts ∧
      (∀ k, 1 ≤ k → k < n → ∃ exc, (call.attempts k).Retried exc) ∧
      Leaves (call.attempts n) (runWithRetries policy call.attempts).1 := by
  obtain ⟨left, hleft⟩ : ∃ left, policy.maxAttempts = left + 1 :=
    ⟨policy.maxAttempts - 1, by have := policy.attempts_pos; omega⟩
  obtain ⟨delays, hrun⟩ := honoursFrom_of_waits left 1 none le_rfl (by omega) h
  rw [← hleft] at hrun
  exact ⟨1 + delays.length, Nat.le_add_right 1 _, hrun.calls_le, hrun.retried, hrun.leaves⟩

/-- A request gives what its last attempt gave, after attempts that were worth another one. -/
theorem requested_eq (h : call.Waits policy) (unavailable : String → Exn) :
    ∃ n, 1 ≤ n ∧ n ≤ policy.maxAttempts ∧
      (∀ k, 1 ≤ k → k < n → ∃ exc, (call.attempts k).Retried exc) ∧
      requested policy call unavailable = settled unavailable (call.attempts n).outcome := by
  obtain ⟨n, hpos, hn, hretried, hleaves⟩ := h.leaves
  refine ⟨n, hpos, hn, hretried, ?_⟩
  rcases hleaves with ⟨result, houtcome, hout⟩ | ⟨exc, houtcome, hout⟩
  · rw [requested, hout, houtcome]
    rfl
  · rw [requested, hout, houtcome]
    dsimp only
    cases hdescribed : exc.described with
    | none => simp [settled, hdescribed, throw, throwThe, MonadExceptOf.throw]
    | some text => simp [settled, hdescribed, throw, throwThe, MonadExceptOf.throw]

/-- The library raises errors of its own only, and every wait between them is slept. -/
structure ProviderCall.Declared (policy : RetryPolicy) (call : ProviderCall T) : Prop where
  waits : call.Waits policy
  described : ∀ n exc, (call.attempts n).outcome = .error exc → exc.described ≠ none

theorem requested_error (h : call.Declared policy) {e : Exn}
    (he : requested policy call unavailable = .error e) : ∃ text, e = unavailable text := by
  obtain ⟨n, -, -, -, hn⟩ := requested_eq h.waits unavailable
  rw [hn] at he
  cases houtcome : (call.attempts n).outcome with
  | ok result =>
    rw [houtcome] at he
    cases he
  | error exc =>
    obtain ⟨text, htext⟩ := Option.ne_none_iff_exists'.mp (h.described n exc houtcome)
    rw [houtcome, settled, htext] at he
    cases he
    exact ⟨text, rfl⟩

theorem requested_ok (h : call.Waits policy) {result : T}
    (hr : requested policy call unavailable = .ok result) :
    ∃ n, (call.attempts n).outcome = .ok result := by
  obtain ⟨n, -, -, -, hn⟩ := requested_eq h unavailable
  rw [hn] at hr
  cases houtcome : (call.attempts n).outcome with
  | ok result' =>
    rw [houtcome] at hr
    cases hr
    exact ⟨n, houtcome⟩
  | error exc =>
    rw [houtcome] at hr
    cases hr

end Requested

/-! ## Readers -/

/-- An exception that the provider of a kind declares. -/
def Exn.DeclaredBy (kind : ProviderKind) (e : Exn) : Prop :=
  (∃ raw, e = .providerOutput kind raw) ∨ e = .providerUnavailable kind

/-- A step raises only what the provider of the kind declares. -/
def Declares {α : Type} (kind : ProviderKind) (x : Except Exn α) : Prop :=
  ∀ e, x = .error e → e.DeclaredBy kind

namespace Declares

variable {α β : Type} {kind : ProviderKind} {raw : String}

theorem pure (a : α) : Declares kind (Pure.pure a) := nofun

theorem throw : Declares kind (MonadExcept.throw (.providerOutput kind raw) : Except Exn α) := by
  rintro e he
  cases he
  exact .inl ⟨raw, rfl⟩

theorem bind {x : Except Exn α} {f : α → Except Exn β} (hx : Declares kind x)
    (hf : ∀ a, x = .ok a → Declares kind (f a)) : Declares kind (x >>= f) := by
  cases x with
  | error e =>
    rintro e' he
    cases he
    exact hx e rfl
  | ok a => exact hf a rfl

theorem mapM {f : α → Except Exn β} (hf : ∀ a, Declares kind (f a)) :
    ∀ as : List α, Declares kind (as.mapM f)
  | [] => by
    rw [List.mapM_nil]
    exact pure _
  | a :: as => by
    rw [List.mapM_cons]
    exact (hf a).bind fun _ _ => (mapM hf as).bind fun _ _ => pure _

end Declares

theorem readRoute_declares (json : JsonModule) (arguments : String) :
    Declares .classifier (readRoute json arguments) := by
  unfold readRoute
  split
  · exact .throw
  · split
    · split
      · exact .pure _
      · exact .throw
    · exact .throw

theorem parseIsoDate_declares (rawOutput : String) (value : Option Json) :
    Declares .rewriter (parseIsoDate rawOutput value) := by
  unfold parseIsoDate
  split
  · exact .pure _
  · exact .pure _
  · split
    · exact .pure _
    · exact .throw
  · exact .throw

theorem dateRangeOf_declares (rawOutput : String) (start stop : Option Date) :
    Declares .rewriter (dateRangeOf rawOutput start stop) := by
  unfold dateRangeOf
  split
  · exact .pure _
  · split
    · exact .pure _
    · exact .throw

theorem readRewrite_declares (json : JsonModule) (arguments : String) :
    Declares .rewriter (readRewrite json arguments) := by
  unfold readRewrite
  split
  · split
    · split
      · exact .throw
      · exact (parseIsoDate_declares _ _).bind fun _ _ => (parseIsoDate_declares _ _).bind fun _ _ =>
          (dateRangeOf_declares _ _ _).bind fun _ _ => .pure _
    · exact .throw
  · exact .throw

theorem readOutward_declares (json : JsonModule) (arguments : String) :
    Declares .outwardRewriter (readOutward json arguments) := by
  unfold readOutward
  split
  · split
    · split
      · exact .throw
      · exact .pure _
    · exact .throw
  · exact .throw

theorem readEntry_declares (body : String) (entry : Json) :
    Declares .knowledge (readEntry body entry) := by
  unfold readEntry
  split
  · split
    · split
      · exact .throw
      · exact .pure _
    · exact .throw
  · exact .throw

theorem readResults_declares (json : JsonModule) (maxResults : Nat) (body : String) :
    Declares .knowledge (readResults json maxResults body) := by
  unfold readResults
  split
  · split
    · exact .mapM (readEntry_declares body) _
    · exact .throw
  · exact .throw

/-! ## Adapters -/

section Adapters

variable {policy : RetryPolicy}

/-- A call whose completions have a choice. -/
structure CompletionCall (policy : RetryPolicy) (call : ProviderCall ChatCompletion) : Prop
    extends call.Declared policy where
  choices : ∀ n completion, (call.attempts n).outcome = .ok completion → completion.choices ≠ []

theorem ChatCompletion.message_eq_ok {completion : ChatCompletion} (h : completion.choices ≠ []) :
    ∃ message, completion.message = .ok message := by
  unfold ChatCompletion.message
  split
  · next hnil => exact absurd hnil h
  · next choice rest _ => exact ⟨choice, rfl⟩

theorem CompletionCall.message {call : ProviderCall ChatCompletion} (h : CompletionCall policy call)
    {unavailable : String → Exn} {completion : ChatCompletion}
    (hr : requested policy call unavailable = .ok completion) :
    ∃ message, completion.message = .ok message := by
  obtain ⟨n, hn⟩ := requested_ok h.waits hr
  exact ChatCompletion.message_eq_ok (h.choices n completion hn)

theorem requested_declares {T : Type} {call : ProviderCall T} {kind : ProviderKind}
    (h : call.Declared policy) :
    Declares kind (requested policy call fun _ => .providerUnavailable kind) := by
  intro e he
  obtain ⟨_, rfl⟩ := requested_error h he
  exact .inr rfl

theorem toolArguments_declares (kind : ProviderKind) {completion : ChatCompletion}
    {message : CompletionMessage} (h : completion.message = .ok message) :
    Declares kind (toolArguments kind completion) := by
  have hmessage : Declares kind completion.message := by
    rw [h]
    exact .pure message
  refine hmessage.bind fun message _ => ?_
  split
  · exact .throw
  · split
    · exact .throw
    · exact .pure _

/-- A forced function call raises what its provider declares. -/
theorem forcedCall_declares {α : Type} {kind : ProviderKind} {read : String → Except Exn α}
    {call : ProviderCall ChatCompletion} (h : CompletionCall policy call)
    (hread : ∀ arguments, Declares kind (read arguments)) :
    Declares kind (forcedCall kind read policy call) := by
  refine (requested_declares h.toDeclared).bind fun completion hr => ?_
  obtain ⟨message, hmessage⟩ := h.message hr
  exact (toolArguments_declares kind hmessage).bind fun arguments _ =>
    (hread arguments).bind fun _ _ => .pure _

/-- The chat client raises `ChatProviderUnavailableError` only. -/
theorem OpenAIChatClient.complete_error {client : OpenAIChatClient}
    {call : ProviderCall ChatCompletion} (h : CompletionCall client.retryPolicy call) {e : Exn}
    (he : client.complete call = .error e) : ∃ message, e = .chatProviderUnavailable message := by
  unfold complete at he
  cases hr : requested client.retryPolicy call _ with
  | error e' =>
    rw [hr] at he
    obtain ⟨text, rfl⟩ := requested_error h.toDeclared hr
    cases he
    exact ⟨_, rfl⟩
  | ok completion =>
    obtain ⟨message, hmessage⟩ := h.message hr
    rw [hr] at he
    change (completion.message >>= _) = _ at he
    rw [hmessage] at he
    cases he

theorem RetryExn.raw_ne_notImplemented (e : RetryExn SdkExn) (message : String) :
    e.raw ≠ .notImplementedError message := by
  cases e with
  | operation exc => cases exc <;> nofun
  | overflowError | valueError | sleepError | assertionError => nofun

theorem OpenAIEmbeddingClient.embed_ne_notImplemented (client : OpenAIEmbeddingClient)
    {texts : List String} {call : ProviderCall (List Vec)} {message : String} :
    client.embed texts call ≠ .error (.notImplementedError message) := by
  unfold embed
  split
  · nofun
  split
  · next e _ => exact fun he => e.raw_ne_notImplemented message (Except.error.inj he)
  · next vectors _ =>
    by_cases hlength : vectors.length = texts.length
    · rw [if_neg (not_not.mpr hlength)]
      beta_reduce
      split
      · exact fun he => by cases he
      · exact fun he => by cases he
    · rw [if_pos hlength]
      exact fun he => by cases he

/-- The vectors of a call are one for each text, of the dimension of the client. -/
theorem OpenAIEmbeddingClient.embed_ok {client : OpenAIEmbeddingClient} {texts : List String}
    {call : ProviderCall (List Vec)} {vectors : List Vec}
    (h : client.embed texts call = .ok vectors) :
    vectors.length = texts.length ∧ ∀ v ∈ vectors, v.length = client.dimension := by
  unfold embed at h
  split at h
  · next htexts =>
    cases h
    exact ⟨htexts ▸ rfl, nofun⟩
  split at h
  · cases h
  next found _ =>
  by_cases hlength : found.length = texts.length
  · rw [if_neg (not_not.mpr hlength)] at h
    beta_reduce at h
    split at h
    · cases h
    · next hnone =>
      cases h
      exact ⟨hlength, fun v hv => by simpa using List.find?_eq_none.mp hnone v hv⟩
  · rw [if_pos hlength] at h
    cases h

end Adapters

/-! ## The environment -/

/-- The real providers, and what their libraries give on each call. -/
structure Providers where
  json : JsonModule
  chat : OpenAIChatClient
  classifier : OpenAIRouteClassifier
  rewriter : OpenAIQueryRewriter
  outwardRewriter : OpenAIOutwardRewriter
  knowledge : TavilyKnowledgeSource
  embedding : OpenAIEmbeddingClient
  chatCall : ℕ → AnswerPrompt → ProviderCall ChatCompletion
  classifierCall : ℕ → String → ProviderCall ChatCompletion
  rewriterCall : ℕ → String → Date → ProviderCall ChatCompletion
  outwardCall : ℕ → String → List String → ProviderCall ChatCompletion
  knowledgeCall : ℕ → String → ProviderCall String
  embeddingCall : ℕ → List String → ProviderCall (List Vec)

namespace Providers

variable (P : Providers)

/-- The environment with the real providers. -/
def env (env : Env) : Env :=
  { env with
    embed := fun n texts => P.embedding.embed texts (P.embeddingCall n texts)
    complete := fun n prompt => P.chat.complete (P.chatCall n prompt)
    classify := fun n question => P.classifier.classify P.json (P.classifierCall n question)
    rewrite := fun n question today =>
      P.rewriter.rewrite P.json (P.rewriterCall n question today)
    rewriteOutward := fun n question context =>
      P.outwardRewriter.rewriteOutward P.json (P.outwardCall n question context)
    search := fun n query => P.knowledge.search P.json (P.knowledgeCall n query) }

/-- The libraries raise errors of their own only, their completions have a choice, and every wait
is slept. -/
structure Declared : Prop where
  chat : ∀ n prompt, CompletionCall P.chat.retryPolicy (P.chatCall n prompt)
  classifier : ∀ n question, CompletionCall P.classifier.retryPolicy (P.classifierCall n question)
  rewriter : ∀ n question today,
    CompletionCall P.rewriter.retryPolicy (P.rewriterCall n question today)
  outwardRewriter : ∀ n question context,
    CompletionCall P.outwardRewriter.retryPolicy (P.outwardCall n question context)
  knowledge : ∀ n query, (P.knowledgeCall n query).Declared P.knowledge.retryPolicy

variable {P}

theorem Declared.optional (h : P.Declared) (env : Env) (e : Exn) : ¬ (P.env env).Undeclared e := by
  have hnot : ∀ {kind : ProviderKind} {e : Exn}, e.DeclaredBy kind →
      ¬ ((∀ raw, e ≠ .providerOutput kind raw) ∧ e ≠ .providerUnavailable kind) := by
    rintro kind e (⟨raw, rfl⟩ | rfl) ⟨houtput, hunavailable⟩
    · exact houtput raw rfl
    · exact hunavailable rfl
  rintro (⟨he, hd⟩ | ⟨he, hd⟩ | ⟨he, hd⟩ | ⟨he, hd⟩)
  · exact hnot (((forcedCall_declares (h.classifier _ _) (readRoute_declares _)).bind
      fun _ _ => .pure _) e he) hd
  · exact hnot (((forcedCall_declares (h.rewriter _ _ _) (readRewrite_declares _)).bind
      fun _ _ => .pure _) e he) hd
  · exact hnot (((forcedCall_declares (h.outwardRewriter _ _ _) (readOutward_declares _)).bind
      fun _ _ => .pure _) e he) hd
  · exact hnot (((requested_declares (h.knowledge _ _)).bind fun _ _ =>
      (readResults_declares _ _ _).bind fun _ _ => .pure _) e he) hd

/-- The real providers declare what the services rely on. -/
theorem Declared.declared (h : P.Declared) {env : Env}
    (hrepository : ∀ n c message, env.storeFails n c = some (.notImplementedError message) →
      c.isSearch = true) : (P.env env).Declared where
  embed _ _ _ := P.embedding.embed_ne_notImplemented
  complete n prompt _ he := OpenAIChatClient.complete_error (h.chat n prompt) he
  optional := h.optional env
  repository := hrepository

end Providers

end DiaryMemory
