import DiaryMemory.Decoding
import DiaryMemory.Operations
import DiaryMemory.Storing

/-!
# Grading what a provider may return

The services grade a reply that parses, and one refused in the family of its parser
(`grade_replied`); another exception of a parser escapes them. The grade is stored with the text
it is about, which the `Driver` of the store must be able to bind. A text is `AlwaysGraded` when
no parser lets another exception out, in any context, and no question or chat whose provider gives
it ends in an exception because of it, nor in one because of a text of a trace.

`alwaysGraded_iff` names the texts that are not : those with a stray marker, and those that the
driver can not bind, or whose answer it can not.
-/

namespace DiaryMemory

/-! ## Replies that are graded -/

section Replies

variable {response : ChatResponse} {context : AnswerContext}

/-- A grounded reply is graded, unless its marker is stray. -/
theorem QueryService.grade_replied {service : QueryService}
    (h : ¬ StrayStructured service.json response.rawText) :
    ∃ g, service.grade context (.ok response) = .ok g := by
  unfold grade
  dsimp only
  cases hparse : parseStructuredAnswer service.json response.rawText context with
  | ok answer => exact ⟨_, rfl⟩
  | error e =>
    obtain ⟨name, message, rfl⟩ := parseStructuredAnswer_own h e hparse
    exact ⟨_, rfl⟩

/-- A reply that is parsed or refused in the family of its route is graded. -/
theorem Generation.grade_replied {α : Type} {family : AnswerFamily} {parse : String → Except Exn α}
    {failed : Generation} {parsed : ChatResponse → α → Generation}
    (h : OwnFamily family (parse response.rawText)) :
    ∃ g, Generation.grade family parse failed parsed (.ok response) = .ok g := by
  unfold grade
  dsimp only
  cases hparse : parse response.rawText with
  | ok answer => exact ⟨_, rfl⟩
  | error e =>
    obtain ⟨name, message, rfl⟩ := h e hparse
    dsimp only
    rw [if_pos rfl]
    exact ⟨_, rfl⟩

/-- No marker of the text is stray. -/
def NoStrayMarker (json : JsonModule) (raw : String) : Prop :=
  ¬ (StrayStructured json raw ∨ StrayNotesPlusModel json raw ∨ StrayNotesPlusKnowledge json raw)

/-- No service refuses to grade a reply without a stray marker. -/
theorem RoutedChatService.not_ungraded {service : RoutedChatService} {e : Exn}
    (h : NoStrayMarker service.json response.rawText) : ¬ service.Ungraded (.ok response) e := by
  have hgraded : ∀ {α : Type} {x : Except Exn α}, (∃ a, x = .ok a) → x ≠ .error e := by
    rintro α _ ⟨a, rfl⟩
    exact nofun
  intro hungraded
  cases hungraded with
  | notesLookup hrefused =>
    obtain ⟨context, hrefused⟩ := hrefused
    exact hgraded (QueryService.grade_replied fun hs => h (.inl hs)) hrefused
  | notesPlusModel context hrefused =>
    exact hgraded (Generation.grade_replied (parseNotesPlusModelAnswer_own fun hs =>
      h (.inr (.inl hs)))) hrefused
  | notesPlusKnowledge context refs hrefused =>
    exact hgraded (Generation.grade_replied (parseNotesPlusKnowledgeAnswer_own fun hs =>
      h (.inr (.inr hs)))) hrefused
  | modelOnly hrefused => exact hgraded (Generation.grade_replied parseModelOnlyAnswer_own) hrefused

end Replies

/-! ## Questions and chats -/

/-- From a tick on, the provider gives the text or is unavailable. -/
def Env.Replies (env : Env) (n₀ : Nat) (raw : String) : Prop :=
  ∀ n, n₀ ≤ n → ∀ prompt, Replied raw (env.complete n prompt)

/-- The texts that the driver of a store can bind. A text stands for a `str`, which may hold lone
surrogates : no driver encodes these, and PostgreSQL does not store NUL. -/
structure Driver where
  binds : String → Bool
  empty : binds "" = true

section Ends

variable {kind : StoreKind} {engine : SearchEngine} {env : Env}

/-- A fault that does not come from grading a reply. -/
def OtherFault (env : Env) (community : String) (w w' : World (kind.backend engine).State)
    (e : Exn) : Prop :=
  Fault env (fun _ _ => False) community w w' e

/-- A question is answered with the grade of the reply, and persisted; its exceptions do not come
from the reply. -/
def AnswerGraded (env : Env) (service : QueryService) (community : String)
    (w : World (kind.backend engine).State) :
    Except Exn AnswerResult → World (kind.backend engine).State → Prop
  | .ok a, w' => ∃ context found g, Answered env service community w w' a context found g
  | .error e, w' => OtherFault env community w w' e

/-- The same for a chat, which has no query only for another reason. -/
def ChatGraded (env : Env) (service : RoutedChatService) (community question : String)
    (w : World (kind.backend engine).State) :
    Except Exn RoutedChatResult → World (kind.backend engine).State → Prop
  | .ok res, w' => ∃ routed w₁ d rewrite search,
    Chatted env service community question w w' res routed w₁ d rewrite search ∧
      (routed.queryId = none → ∃ message, OtherFault env community w w₁ (.notImplementedError message))
  | .error e, w' => OtherFault env community w w' e

/-- No trace whose save raised since is of a text that the driver can not bind. -/
def TextsBound (driver : Driver) (w w' : World (kind.backend engine).State) : Prop :=
  ∀ t, .saveAnswerTrace t ∈ w'.failures.drop w.failures.length →
    driver.binds t.answerText = true

variable {community : String} {w w' : World (kind.backend engine).State}

theorem Fault.other {ungraded : Except Exn ChatResponse → Exn → Prop} {e : Exn}
    (h : Fault env ungraded community w w' e)
    (hgraded : ∀ n prompt e, w.tick ≤ n → ¬ ungraded (env.complete n prompt) e) :
    OtherFault env community w w' e := by
  cases h with
  | store h => exact .store h
  | noCommunity h => exact .noCommunity h
  | embedding h => exact .embedding h
  | noVector h => exact .noVector h
  | undeclared h => exact .undeclared h
  | grading hn hprompts h => exact absurd h (hgraded _ _ _ hn)

/-- What the provider gives without a stray marker is graded on every route. -/
theorem RoutedChatService.graded_of_replies {service : RoutedChatService} {raw : String}
    (h : NoStrayMarker service.json raw) (henv : env.Replies w.tick raw) :
    ∀ n prompt e, w.tick ≤ n → ¬ service.Ungraded (env.complete n prompt) e := by
  intro n prompt e hn hungraded
  rcases henv n hn prompt with ⟨response, hreply, rfl⟩ | ⟨message, hreply⟩
  · rw [hreply] at hungraded
    exact not_ungraded h hungraded
  · rw [hreply] at hungraded
    cases hungraded with
    | notesLookup h => exact nomatch h.choose_spec
    | notesPlusModel _ h | notesPlusKnowledge _ _ h | modelOnly h => exact nomatch h

theorem QuestionEnd.graded {service : QueryService} {r : Except Exn AnswerResult}
    (h : QuestionEnd env service community w r w')
    (hgraded : ∀ n prompt e, w.tick ≤ n → ¬ service.Ungraded (env.complete n prompt) e) :
    AnswerGraded env service community w r w' := by
  cases r with
  | ok a => exact h
  | error e => exact Fault.other h hgraded

/-- Only a route that was not there leaves no query. -/
theorem RoutedEnd.unqueried {service : RoutedChatService} {question : String} {route : ChatRoute}
    {routed : RoutedChatService.Routed}
    (h : RoutedEnd env service community question w route routed w')
    (hnone : routed.queryId = none) :
    ∃ message, Fault env service.Ungraded community w w' (.notImplementedError message) := by
  cases h with
  | unavailable h => exact ⟨_, h⟩
  | notesLookup | modelOnly | notesPlusModel | notesPlusKnowledge => cases hnone

theorem ChatEnd.graded {service : RoutedChatService} {question : String}
    {r : Except Exn RoutedChatResult} (h : ChatEnd env service community question w r w')
    (hgraded : ∀ n prompt e, w.tick ≤ n → ¬ service.Ungraded (env.complete n prompt) e) :
    ChatGraded env service community question w r w' := by
  cases r with
  | error e => exact Fault.other h hgraded
  | ok res =>
    obtain ⟨routed, w₁, d, rewrite, search, h⟩ := h
    refine ⟨routed, w₁, d, rewrite, search, h, fun hnone => ?_⟩
    obtain ⟨message, hfault⟩ := h.route.unqueried hnone
    exact ⟨message, hfault.other hgraded⟩

/-- With a provider that gives the text, calls that allow what a trace may hold of it are answered
as expected. -/
theorem tracing_honours {raw : String} {may : String → Prop} {n₀ : Nat}
    (henv : env.Replies n₀ raw) :
    (tracing (Replied raw) (fun _ => True) may fun _ => True).Honours
      (serve (kind.backend engine) env) fun w => n₀ ≤ w.tick := by
  intro c w hw _
  have hnext : n₀ ≤ (serve (kind.backend engine) env c w).2.tick := by
    rw [tick_serve]
    exact hw.trans (Nat.le_succ _)
  refine ⟨?_, hnext⟩
  rcases c with c | c
  · cases c with
    | saveAnswerTrace => exact fun _ => trivial
    | _ => trivial
  · cases c with
    | complete prompt => exact henv _ hw prompt
    | _ => trivial

/-- Traces of texts that can be bound are the only ones tried. -/
theorem TextsBound.of_ensures {driver : Driver} {raw : String} {α : Type} {p : Proc α}
    {Q : α → Prop} (henv : env.Replies w.tick raw)
    (h : (tracing (Replied raw) (fun _ => True) (fun text => driver.binds text = true)
      fun _ => True).Ensures p Q) :
    TextsBound driver w (p.exec (kind.backend engine) env w).2 := by
  obtain ⟨cs, hfailures, hcs⟩ := h.failures (tracing_honours henv) le_rfl
  intro t ht
  rw [hfailures, List.drop_left] at ht
  exact hcs _ ht

end Ends

/-! ## The texts that are always graded -/

/-- In every context a parser returns a value for the text or raises an exception of its own
family, and after every run a question or a chat whose provider gives it is graded, and its trace
is saved if the store serves the call. -/
structure AlwaysGraded (driver : Driver) (json : JsonModule) (raw : String) : Prop where
  structured : ∀ context, OwnFamily .structured (parseStructuredAnswer json raw context)
  notesPlusModel : ∀ context,
    OwnFamily .notesPlusModel (parseNotesPlusModelAnswer json raw context)
  notesPlusKnowledge : ∀ context refs,
    OwnFamily .notesPlusKnowledge (parseNotesPlusKnowledgeAnswer json raw context refs)
  modelOnly : OwnFamily .modelOnly (parseModelOnlyAnswer json raw)
  answer : ∀ (kind : StoreKind) (engine : SearchEngine) (env : Env) (ops : List Operation)
    (service : QueryService) (message : InboundMessage) (dateRange : Option DateRange)
    (subjectScope : Option String), service.json = json →
    let w := runAll (kind.backend engine) env (World.initial kind engine) ops
    let r := (service.answer message dateRange subjectScope).exec (kind.backend engine) env w
    env.Replies w.tick raw →
      AnswerGraded env service message.communityId w r.1 r.2 ∧ TextsBound driver w r.2
  chat : ∀ (kind : StoreKind) (engine : SearchEngine) (env : Env) (ops : List Operation)
    (service : RoutedChatService) (message : InboundMessage) (subjectScope : Option String),
    service.json = json →
    let w := runAll (kind.backend engine) env (World.initial kind engine) ops
    let r := (service.chat message subjectScope).exec (kind.backend engine) env w
    env.Replies w.tick raw →
      ChatGraded env service message.communityId (PyText.strip message.payload) w r.1 r.2 ∧
        TextsBound driver w r.2

/-- No marker of the text is stray, and the driver binds the text, and the answer it gives if it
gives one. -/
structure Gradable (driver : Driver) (json : JsonModule) (raw : String) : Prop where
  noStrayMarker : NoStrayMarker json raw
  reply : driver.binds raw = true
  answer : ∀ text, AnswersWith json raw text → driver.binds text = true

section Gradable

variable {driver : Driver} {json : JsonModule} {raw : String}

/-- Whatever a trace may hold of the text can be bound. -/
theorem Gradable.traces (h : Gradable driver json raw) :
    TracesOf json raw (Replied raw) fun text => driver.binds text = true where
  replied _ hr := hr
  allowed text ht := by
    cases ht with
    | nothing => exact driver.empty
    | reply => exact h.reply
    | answer htext => exact h.answer text htext

theorem Gradable.alwaysGraded (h : Gradable driver json raw) : AlwaysGraded driver json raw := by
  have hstray := h.noStrayMarker
  refine ⟨fun context => parseStructuredAnswer_own fun hs => hstray (.inl hs),
    fun context => parseNotesPlusModelAnswer_own fun hs => hstray (.inr (.inl hs)),
    fun context refs => parseNotesPlusKnowledgeAnswer_own fun hs => hstray (.inr (.inr hs)),
    parseModelOnlyAnswer_own, ?_, ?_⟩
  · intro kind engine env ops service message dateRange subjectScope hjson w r henv
    subst hjson
    have hs : Sound env w := sound_run env ops
    have hend : QuestionEnd env service message.communityId w r.1 r.2 :=
      (Proc.exec_of_wp hs (wp_answer message dateRange subjectScope hs)).2.2
    -- the notes lookup of a chat grades the same replies
    let chat : RoutedChatService := ⟨"", service, "", none, none, none⟩
    have hnone : NoStrayMarker chat.json raw := hstray
    refine ⟨QuestionEnd.graded hend fun n prompt e hn hungraded =>
      RoutedChatService.graded_of_replies hnone henv n prompt e hn (.notesLookup hungraded), ?_⟩
    exact .of_ensures henv (h.traces.answer message dateRange subjectScope)
  · intro kind engine env ops service message subjectScope hjson w r henv
    subst hjson
    have hs : Sound env w := sound_run env ops
    have hend : ChatEnd env service message.communityId (PyText.strip message.payload) w r.1 r.2 :=
      (Proc.exec_of_wp hs (wp_chat hs)).2.2
    exact ⟨ChatEnd.graded hend (RoutedChatService.graded_of_replies hstray henv),
      .of_ensures henv (ensures_stores h.traces message subjectScope)⟩

theorem AlwaysGraded.noStrayMarker (h : AlwaysGraded driver json raw) : NoStrayMarker json raw := by
  have hescapes : ∀ {α : Type} {family : AnswerFamily} {x : Except Exn α},
      OwnFamily family x → ¬ ∃ message, x = .error (.typeError message) := by
    rintro α family _ hown ⟨message, rfl⟩
    obtain ⟨_, _, he⟩ := hown _ rfl
    cases he
  let context : AnswerContext := ⟨"", "", [], "", Env.steady.now 0⟩
  rintro (hs | hs | hs)
  · exact hescapes (h.structured context) (parseStructuredAnswer_stray hs)
  · exact hescapes (h.notesPlusModel context) (parseNotesPlusModelAnswer_stray hs)
  · exact hescapes (h.notesPlusKnowledge context []) (parseNotesPlusKnowledgeAnswer_stray hs)

/-! ### A driver that refuses what it can not bind -/

/-- The provider gives the text, the classifier the route, and the save of a trace raises where
the driver can not bind its text. -/
def Env.binding (driver : Driver) (raw : String) (route : ChatRoute) : Env :=
  { Env.steady with
    complete := fun _ _ => .ok ⟨raw, "model", [], 0⟩
    classify := fun _ _ => .ok ⟨route, "", "model", 0⟩
    storeFails := fun _ c =>
      match c with
      | .saveAnswerTrace t =>
        if driver.binds t.answerText then none else some (.other "UnicodeEncodeError")
      | _ => none }

/-- A save that raises there is of a text that can not be bound. -/
theorem Env.storeFails_binding {route : ChatRoute} {n : Nat} {c : RepoCall} {e : Exn}
    (h : (Env.binding driver raw route).storeFails n c = some e) :
    ∃ t, c = .saveAnswerTrace t ∧ driver.binds t.answerText = false := by
  cases c with
  | saveAnswerTrace t =>
    dsimp only [Env.binding] at h
    split at h
    · cases h
    · next hbinds => exact ⟨t, rfl, Bool.eq_false_iff.mpr hbinds⟩
  | _ => cases h

/-- What it gives and saves. -/
abbrev bindingPact (driver : Driver) (raw : String) (route : ChatRoute) : Pact Call Reply :=
  tracing (fun r => r = .ok ⟨raw, "model", [], 0⟩) (fun r => r = .ok ⟨route, "", "model", 0⟩)
    (fun _ => True) fun text => driver.binds text = true

theorem binding_honours (route : ChatRoute) (B : Backend) : (bindingPact driver raw route).Honours
    (serve B (Env.binding driver raw route)) fun _ => True := by
  rintro (c | c) w - -
  · refine ⟨?_, trivial⟩
    cases c with
    | saveAnswerTrace t =>
      intro hr
      by_contra hbinds
      simp [serve, respond, serveRepo, Env.binding, hbinds] at hr
    | _ => trivial
  · cases c with
    | complete => exact ⟨rfl, trivial⟩
    | classify => exact ⟨rfl, trivial⟩
    | _ => exact ⟨trivial, trivial⟩

section Bound

variable {engine : SearchEngine} {route : ChatRoute} {community question : String}
  {w w' : World ((StoreKind.sql .postgres).backend engine).State} {cs : List RepoCall}

/-- Where the traces are bound and the searches have a community, nothing else fails. -/
theorem not_otherFault_binding {e : Exn} (hcommunity : community ≠ "")
    (hfailures : w'.failures <+: w.failures ++ cs)
    (hcs : ∀ c ∈ cs, (bindingPact driver raw route).asks (.repo c))
    (hbound : ∀ t, .saveAnswerTrace t ∈ cs → driver.binds t.answerText = true) :
    ¬ OtherFault (Env.binding driver raw route) community w w' e := by
  intro h
  cases h with
  | store h =>
    obtain ⟨_, c, hlast, ⟨more, rfl⟩, hwhy⟩ := h
    have hc : c ∈ cs := by
      rw [hlast, List.append_assoc, List.prefix_append_right_inj] at hfailures
      exact hfailures.subset (List.mem_append_right _ (List.mem_singleton_self c))
    rcases hwhy with ⟨hsearch, T, hrefused⟩ | ⟨n, -, hfails⟩
    · have hscope := hcs c hc
      cases c with
      | denseCandidates | sparseCandidates =>
        simp only [RepoCall.Refused, StoreKind.sql.injEq, reduceCtorEq, false_and, false_or,
          or_false] at hrefused
        exact hscope hrefused
      | _ => cases hsearch
    · obtain ⟨t, rfl, hbinds⟩ := Env.storeFails_binding hfails
      rw [hbound t hc] at hbinds
      cases hbinds
  | noCommunity h => exact hcommunity h
  | embedding h => cases h
  | noVector h => cases h
  | undeclared h =>
    cases h with
    | classifier h | rewriter h | outwardRewriter h | knowledge h => cases h
  | grading _ _ h => exact h

/-- Such a chat returns, with an answer of its route. -/
theorem ChatGraded.returns {service : RoutedChatService} {r : Except Exn RoutedChatResult}
    (h : ChatGraded (Env.binding driver raw route) service community question w r w')
    (hcommunity : community ≠ "") (hfailures : w'.failures = w.failures ++ cs)
    (hcs : ∀ c ∈ cs, (bindingPact driver raw route).asks (.repo c))
    (hbound : TextsBound driver w w') :
    ∃ res routed w₁, r = .ok res ∧ res.answer = routed.answer ∧ routed.queryId ≠ none ∧
      RoutedEnd (Env.binding driver raw route) service community question w res.effectiveRoute
        routed w₁ := by
  have hbinds : ∀ t, .saveAnswerTrace t ∈ cs → driver.binds t.answerText = true := by
    intro t ht
    refine hbound t ?_
    rwa [hfailures, List.drop_left]
  cases r with
  | error e => exact absurd h (not_otherFault_binding hcommunity (hfailures ▸ List.prefix_rfl) hcs hbinds)
  | ok res =>
    obtain ⟨routed, w₁, d, rewrite, search, hchatted, hnone⟩ := h
    refine ⟨res, routed, w₁, rfl, hchatted.answer, fun hquery => ?_, hchatted.route⟩
    obtain ⟨message, hfault⟩ := hnone hquery
    have hprefix : w₁.failures <+: w.failures ++ cs := hfailures ▸ hchatted.log.filterMap _
    exact not_otherFault_binding hcommunity hprefix hcs hbinds hfault

end Bound

/-- An answer with notes and model knowledge has a context. -/
theorem RoutedEnd.context {kind : StoreKind} {engine : SearchEngine} {env : Env}
    {service : RoutedChatService} {community question : String}
    {w w' : World (kind.backend engine).State} {routed : RoutedChatService.Routed}
    (h : RoutedEnd env service community question w .notesPlusModel routed w')
    (hquery : routed.queryId ≠ none) : routed.answer.context ≠ none := by
  cases h with
  | unavailable => exact absurd rfl hquery
  | notesPlusModel h =>
    obtain ⟨queryText, rfl⟩ := h.result
    exact Option.some_ne_none _

/-- The question that a chat is asked. -/
theorem strip_walk : PyText.strip "walk" ≠ "" := by decide +kernel

/-- The chat of a text that is always graded returns by each route, and has stored its trace. -/
theorem AlwaysGraded.stores (h : AlwaysGraded driver json raw) (route : ChatRoute)
    (hroute : ∀ service : RoutedChatService, service.effectiveRoute (some route) = route) :
    ∃ routed : RoutedChatService.Routed, (route = .notesPlusModel → routed.answer.context ≠ none) ∧
      TracesOf.Stores json raw (fun r => r = .ok ⟨raw, "model", [], 0⟩)
        (fun text => driver.binds text = true) route routed := by
  let B := (StoreKind.sql .postgres).backend .plain
  let service : RoutedChatService :=
    ⟨"", ⟨⟨"model", 1⟩, "chat", json, 5, 20, by decide⟩, "", none, none, none⟩
  let message : InboundMessage := .plain .ask "walk" 1
  let w : World B.State := World.initial (.sql .postgres) .plain
  obtain ⟨hgraded, hbound⟩ := h.chat (.sql .postgres) .plain (.binding driver raw route) [] service
    message none rfl fun _ _ _ => .inl ⟨_, rfl, rfl⟩
  have htraces : TracesOf service.json raw (fun r => r = .ok ⟨raw, "model", [], 0⟩) fun _ => True :=
    ⟨fun r hr => .inl ⟨_, hr, rfl⟩, fun _ _ => trivial⟩
  have hstores : (bindingPact driver raw route).Ensures (service.chat message none) _ :=
    ensures_stores htraces message none
  have hI : (fun _ : World B.State => True) w := trivial
  obtain ⟨cs, hfailures, hcs⟩ := hstores.failures (binding_honours route B) hI
  obtain ⟨res, routed, w₁, hres, hanswer, hquery, hend⟩ :=
    hgraded.returns (by decide) hfailures hcs hbound
  obtain ⟨hverdict, heffective, routed', hstored, hanswer'⟩ :=
    hstores.exec (binding_honours route B) hI hres
  have hrequested : res.requestedRoute = some route := by
    rcases hverdict with hempty | ⟨v, hv, hrequested⟩ | ⟨e, he⟩
    · exact absurd hempty strip_walk
    · cases hv
      exact hrequested
    · cases he
  rw [hrequested, hroute] at heffective
  subst heffective
  refine ⟨routed', fun hmixed => ?_, hstored⟩
  rw [← hanswer', hanswer]
  rw [hmixed] at hend
  exact hend.context hquery

end Gradable

/-- A text is always graded exactly when no marker of it is stray, and the driver of the store can
bind the text and the answer in it. -/
theorem alwaysGraded_iff (driver : Driver) (json : JsonModule) (raw : String) :
    AlwaysGraded driver json raw ↔ Gradable driver json raw := by
  refine ⟨fun h => ⟨h.noStrayMarker, ?_, ?_⟩, Gradable.alwaysGraded⟩
  · obtain ⟨routed, hcontext, hstores⟩ := h.stores .notesPlusModel fun _ => rfl
    exact hstores (hcontext rfl) fun r hr => ⟨_, hr⟩
  · obtain ⟨routed, -, hstores⟩ := h.stores .modelOnly fun _ => rfl
    exact hstores fun r hr => ⟨_, hr⟩

/-- An answer whose marker is a list. -/
def listMarkerText : String :=
  "\x7b\"answer_text\": \"a\", \"cited_chunk_ids\": [], \"uncertainty\": []\x7d"

/-- It decodes to this object. -/
theorem JsonModule.loads_listMarker : standard.loads listMarkerText =
    .ok (.dict [("answer_text", .str "a"), ("cited_chunk_ids", .list []),
      ("uncertainty", .list [])]) :=
  standard_loads (by decide +kernel : JsonText.dumps {} (.dict [("answer_text", .str "a"),
    ("cited_chunk_ids", .list []), ("uncertainty", .list [])]) = listMarkerText) rfl

/-- A driver that binds every text. -/
def Driver.total : Driver := ⟨fun _ => true, rfl⟩

/-- A provider that gives it. -/
def Env.listMarker : Env := { Env.steady with complete := fun _ _ => .ok ⟨listMarkerText, "model", [], 0⟩ }

/-- A grounded answer whose marker is a list escapes the question as `TypeError`, after which no
trace of the question is there. -/
theorem listMarker_escapes :
    let B := StoreKind.mock.backend .plain
    let service : QueryService := ⟨⟨"model", 1⟩, "chat", .standard, 5, 20, by decide⟩
    let w := runAll B .listMarker (World.initial .mock .plain)
      [.ingest ⟨some ⟨"model", 1⟩⟩ (.plain .note "2026-05-09\nwalk" 0)]
    let r := (service.answer (.plain .ask "walk" 1) none none).exec B .listMarker w
    ¬ AlwaysGraded .total .standard listMarkerText ∧
      Env.listMarker.Replies w.tick listMarkerText ∧
      r.1 = .error (.typeError "unhashable type: 'list'") ∧ r.2.rows.queries.rows = [] ∧
      r.2.rows.answerTraces.rows = [] := by
  rw [← JsonModule.first_eq JsonModule.loads_listMarker]
  intro B service w r
  refine ⟨fun h => ?_, fun n _ prompt => .inl ⟨_, rfl, rfl⟩, ?_, ?_, ?_⟩
  · obtain ⟨name, message, he⟩ := h.structured ⟨"", "", [], "", Env.steady.now 0⟩
      (.typeError "unhashable type: 'list'") (by rfl)
    cases he
  · decide +kernel
  · decide +kernel
  · decide +kernel

end DiaryMemory
