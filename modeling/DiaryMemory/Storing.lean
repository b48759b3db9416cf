import DiaryMemory.Asking
import DiaryMemory.Parsing
import DiaryMemory.System

/-!
# The texts that traces hold

The trace of an answer holds the reply of the chat provider, or the text it answers with, or
nothing (`TraceText`) : an answer and a chat keep to `tracing`, which allows traces of these texts
only. The route with notes and model knowledge stores every reply as it is, and the model-only
route the text of every answer it can read (`ensures_stores`).
-/

namespace DiaryMemory

open Pact

/-- The provider gave the text, or was unavailable. -/
def Replied (raw : String) (reply : Except Exn ChatResponse) : Prop :=
  (∃ response, reply = .ok response ∧ response.rawText = raw) ∨
    ∃ message, reply = .error (.chatProviderUnavailable message)

/-- The reply decodes to an object that answers with the text. -/
def AnswersWith (json : JsonModule) (raw text : String) : Prop :=
  ∃ fields, json.loads raw = .ok (.dict fields) ∧ fields.lookup "answer_text" = some (.str text)

/-- What a trace may hold of a reply. -/
inductive TraceText (json : JsonModule) (raw : String) : String → Prop
  | nothing : TraceText json raw ""
  | reply : TraceText json raw raw
  | answer {text : String} (h : AnswersWith json raw text) : TraceText json raw text

/-! ## Grades -/

section Grades

variable {json : JsonModule} {raw : String}

theorem parseModelOnlyAnswer_eq_ok {text : String} :
    parseModelOnlyAnswer json raw = .ok text ↔ AnswersWith json raw text := by
  unfold parseModelOnlyAnswer
  constructor
  · intro h
    split at h
    · cases h
    · next fields hloads =>
      split at h
      · next s hs =>
        cases h
        exact ⟨fields, hloads, hs⟩
      · cases h
    · cases h
  · rintro ⟨fields, hloads, htext⟩
    rw [hloads]
    dsimp only
    rw [htext]
    rfl

theorem answersWith_of_parse {context : AnswerContext} {answer : StructuredAnswer}
    (h : parseStructuredAnswer json raw context = .ok answer) :
    AnswersWith json raw answer.answerText := by
  unfold parseStructuredAnswer at h
  split at h
  · cases h
  · next fields hloads =>
    dsimp only at h
    split at h
    · cases h
    split at h
    · cases h
    obtain ⟨text, htext, h⟩ := ok_of_bind h
    obtain ⟨cited, -, h⟩ := ok_of_bind h
    obtain ⟨marker, -, h⟩ := ok_of_bind h
    split at h
    · cases h
    split at h
    · cases h
    cases h
    unfold stringField at htext
    split at htext
    · next s hs =>
      cases htext
      exact ⟨fields, hloads, hs⟩
    · cases htext
  · cases h

/-- The trace of a graded question. -/
theorem QueryService.traceText {service : QueryService} {context : AnswerContext}
    {reply : Except Exn ChatResponse} {g : Graded} (hreply : Replied raw reply)
    (h : service.grade context reply = .ok g) : TraceText service.json raw g.traceAnswerText := by
  obtain ⟨response, rfl, rfl⟩ | ⟨message, rfl⟩ := hreply
  · unfold grade at h
    dsimp only at h
    split at h
    · cases h
      exact .reply
    · cases h
    · next answer hparse =>
      cases h
      exact .answer (answersWith_of_parse hparse)
  · cases h
    exact .nothing

/-- The trace of a generation. -/
theorem Generation.traceText {α : Type} {family : AnswerFamily} {parse : String → Except Exn α}
    {failed : Generation} {parsed : ChatResponse → α → Generation} {reply : Except Exn ChatResponse}
    {g : Generation} (hreply : Replied raw reply) (hfailed : failed.traceAnswerText = "")
    (hparsed : ∀ response a, response.rawText = raw → parse raw = .ok a →
      TraceText json raw (parsed response a).traceAnswerText)
    (h : Generation.grade family parse failed parsed reply = .ok g) :
    TraceText json raw g.traceAnswerText := by
  obtain ⟨response, rfl, rfl⟩ | ⟨message, rfl⟩ := hreply
  · unfold grade at h
    dsimp only at h
    split at h
    · next a ha =>
      cases h
      exact hparsed response a rfl ha
    · split at h
      · cases h
        exact .reply
      · cases h
    · cases h
  · cases h
    exact hfailed ▸ .nothing

theorem RoutedChatService.traceText_notesPlusModel {service : RoutedChatService}
    {context : AnswerContext} {reply : Except Exn ChatResponse} {g : Generation}
    (hreply : Replied raw reply) (h : service.gradeNotesPlusModel context reply = .ok g) :
    TraceText service.json raw g.traceAnswerText :=
  Generation.traceText hreply rfl (fun _ _ hraw _ => hraw ▸ .reply) h

theorem RoutedChatService.traceText_notesPlusKnowledge {service : RoutedChatService}
    {context : AnswerContext} {refs : List String} {reply : Except Exn ChatResponse}
    {g : Generation} (hreply : Replied raw reply)
    (h : service.gradeNotesPlusKnowledge context refs reply = .ok g) :
    TraceText service.json raw g.traceAnswerText :=
  Generation.traceText hreply rfl (fun _ _ hraw _ => hraw ▸ .reply) h

theorem RoutedChatService.traceText_modelOnly {service : RoutedChatService}
    {reply : Except Exn ChatResponse} {g : Generation} (hreply : Replied raw reply)
    (h : service.gradeModelOnly reply = .ok g) : TraceText service.json raw g.traceAnswerText :=
  Generation.traceText hreply rfl
    (fun _ _ _ ha => .answer (parseModelOnlyAnswer_eq_ok.mp ha)) h

/-- A mixed route stores a reply as it is. -/
theorem RoutedChatService.trace_notesPlusModel {service : RoutedChatService}
    {context : AnswerContext} {response : ChatResponse} {g : Generation}
    (h : service.gradeNotesPlusModel context (.ok response) = .ok g) :
    g.traceAnswerText = response.rawText := by
  unfold gradeNotesPlusModel Generation.grade at h
  dsimp only at h
  split at h
  · cases h
    rfl
  · split at h
    · cases h
      rfl
    · cases h
  · cases h

/-- The model-only route stores the text of an answer it can read. -/
theorem RoutedChatService.trace_modelOnly {service : RoutedChatService} {response : ChatResponse}
    {g : Generation} {text : String} (htext : AnswersWith service.json response.rawText text)
    (h : service.gradeModelOnly (.ok response) = .ok g) : g.traceAnswerText = text := by
  unfold gradeModelOnly Generation.grade at h
  dsimp only at h
  rw [parseModelOnlyAnswer_eq_ok.mpr htext] at h
  cases h
  rfl

end Grades

/-! ## The pact -/

/-- The provider gives what `reply` says, the classifier what `verdict` says; a trace may hold the
texts of `may`, and one that is saved holds a text of `saved`. -/
def tracing (reply : Except Exn ChatResponse → Prop)
    (verdict : Except Exn RouteClassification → Prop) (may saved : String → Prop) :
    Pact Call Reply where
  asks
    | .repo (.saveAnswerTrace t) => may t.answerText
    | .repo (.denseCandidates _ _ scope) | .repo (.sparseCandidates _ scope) => scope.community ≠ ""
    | _ => True
  gives
    | .sys (.complete _), r => reply r
    | .sys (.classify _), r => verdict r
    | .repo (.saveAnswerTrace t), r => r = .ok () → saved t.answerText
    | _, _ => True

/-- The provider gives the text or is unavailable, and a trace may hold the texts it may hold. -/
structure TracesOf (json : JsonModule) (raw : String) (reply : Except Exn ChatResponse → Prop)
    (may : String → Prop) : Prop where
  replied : ∀ r, reply r → Replied raw r
  allowed : ∀ text, TraceText json raw text → may text

namespace TracesOf

variable {json : JsonModule} {raw : String} {reply : Except Exn ChatResponse → Prop}
  {verdict : Except Exn RouteClassification → Prop} {may saved : String → Prop}

/-- A provider that always answers gives the text. -/
theorem response (h : TracesOf json raw reply may) {r : Except Exn ChatResponse} (hr : reply r)
    (hall : ∀ r, reply r → ∃ response, r = .ok response) :
    ∃ response, r = .ok response ∧ response.rawText = raw := by
  rcases h.replied r hr with hgiven | ⟨message, rfl⟩
  · exact hgiven
  · obtain ⟨_, hnone⟩ := hall _ hr
    cases hnone

theorem routine : (tracing reply verdict may saved).Routine := by
  rintro (c | c) hc
  · cases c with
    | saveAnswerTrace | denseCandidates | sparseCandidates => exact hc.elim
    | _ => trivial
  · trivial

theorem saveTrace {t : AnswerTrace} (h : may t.answerText) :
    (tracing reply verdict may saved).Ensures (Proc.saveAnswerTrace t)
      fun _ => saved t.answerText :=
  ensures_attempt ⟨h, fun _ _ hr _ ha => hr ha⟩

theorem completed (prompt : AnswerPrompt) : (tracing reply verdict may saved).Ensures
    (capture (Proc.complete prompt)) reply :=
  ensures_completed trivial

/-- A search is made in the community of a question. -/
theorem retrieve (service : QueryService) (community text : String) (dateRange : Option DateRange)
    (subjectScope : Option String) : (tracing reply verdict may saved).Ensures
      (service.retrieve community text dateRange subjectScope) fun _ => True := by
  unfold QueryService.retrieve
  split
  · exact ensures_throw _
  · next hcommunity =>
    refine ensures_seq (ensures_attempt ⟨trivial, fun _ _ _ _ _ => trivial⟩) fun vectors => ?_
    cases vectors with
    | nil => exact ensures_throw _
    | cons vector vectors =>
      exact ensures_seq (ensures_repo hcommunity) fun _ =>
        ensures_seq (ensures_repo hcommunity) fun _ =>
          ensures_bind _ (ensures_ofExcept _) fun _ _ => ensures_done _

theorem finalize {query : Query} {candidates : RetrievedCandidates} {context : AnswerContext}
    {graded : Graded} (h : may graded.traceAnswerText) : (tracing reply verdict may saved).Ensures
      (QueryService.finalize query candidates context graded) fun _ => True :=
  ensures_seq (ensures_saveQueryAndHits routine ..) fun _ => ensures_seq routine.uuid4 fun _ =>
    ensures_seq routine.now fun _ => ensures_bind _ (saveTrace h) fun _ _ => ensures_done _

theorem answer {service : QueryService} (h : TracesOf service.json raw reply may)
    (message : InboundMessage) (dateRange : Option DateRange) (subjectScope : Option String) :
    (tracing reply verdict may saved).Ensures
      (service.answer message dateRange subjectScope) fun _ => True := by
  unfold QueryService.answer
  split
  · exact ensures_throw _
  refine ensures_seq routine.now fun createdAt => ensures_seq routine.uuid4 fun queryId => ?_
  unfold QueryService.answerNew
  dsimp only
  split
  · exact finalize (h.allowed _ .nothing)
  · refine ensures_seq (retrieve ..) fun candidates => ?_
    split
    · exact finalize (h.allowed _ .nothing)
    · refine ensures_bind _ (ensures_ofExcept _) fun prompt _ =>
        ensures_bind _ (completed prompt) fun r hr => ?_
      exact ensures_bind _ (ensures_ofExcept _) fun graded hgraded =>
        finalize (h.allowed _ (QueryService.traceText (h.replied r hr) hgraded))

theorem finishMixed (service : RoutedChatService) {query : Query} {candidates : RetrievedCandidates}
    {context : AnswerContext} {promptVersion : String} {g : Generation}
    (h : may g.traceAnswerText) : (tracing reply verdict may saved).Ensures
      (service.finishMixed query candidates context promptVersion g)
      fun _ => saved g.traceAnswerText :=
  ensures_seq (ensures_saveQueryAndHits routine ..) fun _ => ensures_seq routine.uuid4 fun _ =>
    ensures_bind _ (saveTrace h) fun _ hsaved => ensures_pure hsaved

/-- What a route stores of a reply, if the provider gives one. -/
def Stores (json : JsonModule) (raw : String) (reply : Except Exn ChatResponse → Prop)
    (saved : String → Prop) : ChatRoute → RoutedChatService.Routed → Prop
  | .notesPlusModel, routed => routed.answer.context ≠ none →
    (∀ r, reply r → ∃ response, r = .ok response) → saved raw
  | .modelOnly, _ => (∀ r, reply r → ∃ response, r = .ok response) →
    ∀ text, AnswersWith json raw text → saved text
  | _, _ => True

section Routes

variable {service : RoutedChatService} (h : TracesOf service.json raw reply may)
include h

theorem answerNotesPlusModel (message : InboundMessage) (question : String)
    (subjectScope : Option String) : (tracing reply verdict may saved).Ensures
      (service.answerNotesPlusModel message question subjectScope)
      fun _ => (∀ r, reply r → ∃ response, r = .ok response) → saved raw := by
  refine ensures_seq routine.now fun _ => ensures_seq routine.uuid4 fun _ =>
    ensures_seq (ensures_rewrite routine _) fun _ => ensures_seq (retrieve ..) fun _ => ?_
  refine ensures_bind _ (ensures_ofExcept _) fun prompt _ =>
    ensures_bind _ (completed prompt) fun r hr =>
      ensures_bind _ (ensures_ofExcept _) fun g hg => ?_
  refine ensures_bind _ (finishMixed _ (h.allowed _
    (RoutedChatService.traceText_notesPlusModel (h.replied r hr) hg))) fun _ hsaved =>
      ensures_pure fun hall => ?_
  obtain ⟨response, rfl, hraw⟩ := h.response hr hall
  rwa [RoutedChatService.trace_notesPlusModel hg, hraw] at hsaved

theorem answerNotesPlusKnowledge (message : InboundMessage) (question : String)
    (subjectScope : Option String) : (tracing reply verdict may saved).Ensures
      (service.answerNotesPlusKnowledge message question subjectScope) fun _ => True := by
  unfold RoutedChatService.answerNotesPlusKnowledge
  split
  · exact ensures_throw _
  refine ensures_seq routine.now fun _ => ensures_seq routine.uuid4 fun _ =>
    ensures_seq (ensures_rewrite routine _) fun _ => ensures_seq (retrieve ..) fun _ => ?_
  refine ensures_seq (ensures_rewriteOutward routine _ _) fun _ =>
    ensures_seq (ensures_searchKnowledge routine _) fun _ => ?_
  refine ensures_bind _ (ensures_ofExcept _) fun prompt _ =>
    ensures_bind _ (completed prompt) fun r hr =>
      ensures_bind _ (ensures_ofExcept _) fun g hg => ?_
  exact ensures_bind _ (finishMixed _ (h.allowed _
    (RoutedChatService.traceText_notesPlusKnowledge (h.replied r hr) hg))) fun _ _ => ensures_done _

theorem answerModelOnly (message : InboundMessage) (question : String) :
    (tracing reply verdict may saved).Ensures (service.answerModelOnly message question)
      fun _ => (∀ r, reply r → ∃ response, r = .ok response) →
        ∀ text, AnswersWith service.json raw text → saved text := by
  refine ensures_seq routine.now fun _ => ensures_seq routine.uuid4 fun _ =>
    ensures_bind _ (completed _) fun r hr => ensures_bind _ (ensures_ofExcept _) fun g hg => ?_
  refine ensures_seq (routine.repo _ trivial) fun _ => ensures_seq routine.uuid4 fun _ =>
    ensures_bind _ (saveTrace (h.allowed _
      (RoutedChatService.traceText_modelOnly (h.replied r hr) hg))) fun _ hsaved =>
        ensures_pure fun hall text htext => ?_
  obtain ⟨response, rfl, rfl⟩ := h.response hr hall
  rwa [RoutedChatService.trace_modelOnly htext hg] at hsaved

theorem answerBy (message : InboundMessage) (question : String) (subjectScope : Option String)
    (route : ChatRoute) : (tracing reply verdict may saved).Ensures
      (service.answerBy message question subjectScope route)
      (Stores service.json raw reply saved route) := by
  cases route with
  | modelOnly => exact ensures_bind _ (h.answerModelOnly ..) fun _ hstored => ensures_pure hstored
  | notesPlusModel =>
    exact ensures_orUnavailable _ (ensures_bind _ (h.answerNotesPlusModel ..) fun _ hstored =>
      ensures_pure fun _ => hstored) fun hnone => absurd rfl hnone
  | notesPlusKnowledge =>
    exact ensures_orUnavailable _ (ensures_seq (h.answerNotesPlusKnowledge ..) fun _ =>
      ensures_done _) trivial
  | notesLookup =>
    exact ensures_orUnavailable _ (ensures_seq (TracesOf.answer h ..) fun _ => ensures_done _) trivial

end Routes

end TracesOf

/-- A chat stores of a reply what its route stores. -/
theorem ensures_stores {service : RoutedChatService} {raw : String}
    {reply : Except Exn ChatResponse → Prop} {verdict : Except Exn RouteClassification → Prop}
    {may saved : String → Prop} (h : TracesOf service.json raw reply may) (message : InboundMessage)
    (subjectScope : Option String) : (tracing reply verdict may saved).Ensures
      (service.chat message subjectScope) fun res =>
        (tracing reply verdict may saved).Verdict (PyText.strip message.payload)
            res.requestedRoute ∧
          res.effectiveRoute = service.effectiveRoute res.requestedRoute ∧
          ∃ routed, TracesOf.Stores service.json raw reply saved res.effectiveRoute routed ∧
            res.answer = routed.answer :=
  ensures_chat TracesOf.routine fun _ route => h.answerBy message _ subjectScope route

section Failures

variable {kind : StoreKind} {engine : SearchEngine} {env : Env}

theorem Event.call_of_failure {e : Event} {c : RepoCall} (h : e.failure = some c) :
    e.call = .repo c := by
  obtain ⟨before, call, raised⟩ := e
  cases call with
  | sys c => cases h
  | repo c =>
    cases raised with
    | false => cases h
    | true => exact congrArg Call.repo (Option.some.inj h)

/-- A call adds itself to those that raised, or nothing. -/
theorem failures_of_serve (c : Call) (w : World (kind.backend engine).State) :
    ∃ cs, (serve (kind.backend engine) env c w).2.failures = w.failures ++ cs ∧
      ∀ c' ∈ cs, c = .repo c' :=
  ⟨_, failures_serve c w, fun _ hc' => Event.call_of_failure (Option.mem_toList.mp hc')⟩

/-- The repository calls of a run that raised were allowed by its pact. -/
theorem Pact.Ensures.failures {P : Pact Call Reply} {α : Type} {p : Proc α} {Q : α → Prop}
    {I : World (kind.backend engine).State → Prop}
    (hP : P.Honours (serve (kind.backend engine) env) I) (h : P.Ensures p Q)
    {w : World (kind.backend engine).State} (hw : I w) :
    ∃ cs, (p.exec (kind.backend engine) env w).2.failures = w.failures ++ cs ∧
      ∀ c ∈ cs, P.asks (.repo c) := by
  have hmeets : P.contract.Meets (serve (kind.backend engine) env) (fun _ => ()) fun w' => I w' ∧
      ∃ cs, w'.failures = w.failures ++ cs ∧ ∀ c ∈ cs, P.asks (.repo c) := by
    rintro c v ⟨hI, cs, hfailures, hcs⟩ hc
    obtain ⟨hgives, hnext⟩ := hP c v hI hc
    obtain ⟨cs', hserved, hcs'⟩ := @failures_of_serve kind engine env c v
    refine ⟨⟨hnext, cs ++ cs', ?_, fun c' hc' => ?_⟩, hgives⟩
    · rw [hserved, hfailures, List.append_assoc]
    · rcases List.mem_append.mp hc' with hc' | hc'
      · exact hcs c' hc'
      · exact hcs' c' hc' ▸ hc
  exact (Prog.run_of_wp hmeets p.run
    ⟨hw, [], (List.append_nil _).symm, List.forall_mem_nil _⟩ h.keeps).1.2

end Failures

end DiaryMemory
