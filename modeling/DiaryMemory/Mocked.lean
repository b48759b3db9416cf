import DiaryMemory.MockAnswers
import DiaryMemory.Pact
import DiaryMemory.Provenance

/-!
# Answers of a mocked deployment

With the mock chat client no answer is degraded. Whatever the other providers and the store do,
also while other requests run, every answer that is returned cites exactly what was retrieved for
it, and says so in the text of its route (`AnswerResult.Mocked`). A mocked answer is empty only
where nothing was retrieved.
-/

namespace DiaryMemory

open Pact

/-- An answer of the mock client on a route. -/
structure AnswerResult.Mocked (a : AnswerResult) (route : ChatRoute) : Prop where
  cited : a.citedChunkIds = a.evidence.map Evidence.chunkId
  fallback : a.fallback = if a.evidence = [] ∧ route ≠ .modelOnly then .noEvidence else .none
  answerText : a.answerText = match route with
    | .notesLookup =>
      if a.evidence = [] then none else some (MockChatClient.groundedText a.citedChunkIds)
    | .modelOnly => some MockChatClient.modelOnlyAnswer
    | _ => orNone (MockChatClient.notesSegment a.citedChunkIds).1
  modelText : a.modelText =
    if route.isMixed then a.context.map fun _ => MockChatClient.notesPlusModelText else none
  knowledgeText : a.knowledgeText = orNone (MockChatClient.knowledgeSegment a.knowledgeRefs)

/-- The environment with the mock chat client. -/
def Env.withChat (env : Env) (client : MockChatClient) : Env :=
  { env with complete := fun _ prompt => .ok (client.complete prompt) }

/-- The service with another decoder. -/
def QueryService.reading (service : QueryService) (json : JsonModule) : QueryService :=
  { service with json }

def RoutedChatService.reading (service : RoutedChatService) (json : JsonModule) : RoutedChatService :=
  { service with query := service.query.reading json }

/-- The chat provider is the client; nothing is known of the other replies. -/
def MockChatClient.pact (client : MockChatClient) : Pact Call Reply where
  asks _ := True
  gives
    | .sys (.complete prompt), r => r = .ok (client.complete prompt)
    | _, _ => True

namespace Mocked

variable {client : MockChatClient} {α β : Type}

theorem skip {p : Proc α} {f : α → Proc β} {Q : β → Prop} (hf : ∀ a, client.pact.Ensures (f a) Q) :
    client.pact.Ensures (p >>= f) Q :=
  ensures_skip (fun _ => trivial) hf

/-- The chat provider does not raise. -/
theorem complete (prompt : AnswerPrompt) : client.pact.Ensures (capture (Proc.complete prompt))
    fun r => r = .ok (client.complete prompt) :=
  ensures_completed trivial

/-! ## The grounded answer -/

variable {decodeError : String → JsonDecodeError} {repr : Json → String} {reprStr : String → String}

/-- Every chunk is evidence, and can be cited. -/
theorem chunkIds_eq (query : Query) (merged : List FusedHit) :
    (assembleAnswerContext query merged).chunkIds =
      (merged.map FusedHit.evidence).map Evidence.chunkId := by
  rw [AnswerContext.chunkIds, assembleAnswerContext, List.map_map, List.map_map]
  rfl

theorem finalize (query : Query) (candidates : RetrievedCandidates) (context : AnswerContext)
    (graded : Graded) : client.pact.Ensures (QueryService.finalize query candidates context graded)
      fun a => a = { fallback := graded.fallback, queryText := query.queryText
                     evidence := candidates.merged.map FusedHit.evidence, context := some context
                     answerText := graded.answerText, citedChunkIds := graded.citedChunkIds } :=
  skip fun _ => skip fun _ => skip fun _ => skip fun _ => ensures_pure rfl

/-- The answer to a question that found nothing. -/
theorem unanswered {service : QueryService} (query : Query) (candidates : RetrievedCandidates)
    (context : AnswerContext) (h : candidates.merged = []) : client.pact.Ensures
      (QueryService.finalize query candidates context service.noEvidence)
      fun a => a.Mocked .notesLookup := by
  refine (finalize ..).imp fun a ha => ?_
  subst ha
  rw [h]
  exact ⟨rfl, rfl, rfl, rfl, rfl⟩

/-- The answer of the client is graded by what it cites. -/
theorem grade_structured (service : QueryService) (context : AnswerContext) {prompt : AnswerPrompt}
    (hversion : prompt.promptVersion = promptVersion)
    (hcited : prompt.citedChunkIds = context.chunkIds) {graded : Graded}
    (h : (service.reading (.python decodeError repr reprStr)).grade context
      (.ok (client.complete prompt)) = .ok graded) :
    graded.fallback = markerToFallback (MockChatClient.structuredAnswer context.chunkIds).uncertainty ∧
      graded.answerText = some (MockChatClient.structuredAnswer context.chunkIds).answerText ∧
      graded.citedChunkIds = (MockChatClient.structuredAnswer context.chunkIds).citedChunkIds := by
  have hread := @MockChatClient.parse_structured client prompt decodeError repr reprStr context
    hversion hcited
  unfold QueryService.grade QueryService.reading at h
  dsimp only at h
  rw [hread] at h
  cases h
  exact ⟨rfl, rfl, rfl⟩

/-- The answer to a question that found something. -/
theorem generate (service : QueryService) (query : Query) (candidates : RetrievedCandidates)
    (h : candidates.merged ≠ []) : client.pact.Ensures
      ((service.reading (.python decodeError repr reprStr)).generate query candidates)
      fun a => a.Mocked .notesLookup := by
  unfold QueryService.generate
  dsimp only
  refine ensures_bind _ (ensures_ofExcept _) fun prompt hprompt => ?_
  refine ensures_bind _ (complete prompt) fun reply hreply => ?_
  subst hreply
  refine ensures_bind _ (ensures_ofExcept _) fun graded hgraded => (finalize ..).imp fun a ha => ?_
  subst ha
  obtain ⟨_, -, hprompt⟩ := ok_of_bind hprompt
  cases hprompt
  obtain ⟨hfallback, htext, hcited⟩ := grade_structured service _ rfl rfl hgraded
  have hsome : candidates.merged.map FusedHit.evidence ≠ [] := fun he => h (List.map_eq_nil_iff.mp he)
  rw [chunkIds_eq, MockChatClient.structuredAnswer,
    if_neg fun he => hsome (List.map_eq_nil_iff.mp he)] at hfallback htext hcited
  refine ⟨hcited, ?_, ?_, rfl, rfl⟩
  · exact hfallback.trans (if_neg fun he => hsome he.1).symm
  · dsimp only
    rw [if_neg hsome, htext, hcited]

theorem answer (service : QueryService) (message : InboundMessage) (dateRange : Option DateRange)
    (subjectScope : Option String) : client.pact.Ensures
      ((service.reading (.python decodeError repr reprStr)).answer message dateRange subjectScope)
      fun a => a.Mocked .notesLookup := by
  unfold QueryService.answer
  split
  · exact ensures_throw _
  refine skip fun createdAt => skip fun queryId => ?_
  unfold QueryService.answerNew
  dsimp only
  split
  · exact unanswered _ _ _ rfl
  · refine skip fun candidates => ?_
    split
    · next h => exact unanswered _ _ _ h
    · next h => exact generate service _ candidates h

/-! ## The other routes -/

/-- The generation of a mixed route. -/
structure Generated (g : Generation) (ids refs : List String) : Prop where
  cited : g.citedChunkIds = ids
  fallback : g.fallback = notesMarkerToFallback (MockChatClient.notesSegment ids).2
  answerText : g.answerText = orNone (MockChatClient.notesSegment ids).1
  modelText : g.modelText = some MockChatClient.notesPlusModelText
  knowledgeRefs : g.knowledgeRefs = refs
  knowledgeText : g.knowledgeText = orNone (MockChatClient.knowledgeSegment refs)

theorem generated_notesPlusModel (service : RoutedChatService) (context : AnswerContext)
    {prompt : AnswerPrompt} (hversion : prompt.promptVersion = notesPlusModelPromptVersion)
    (hcited : prompt.citedChunkIds = context.chunkIds) {g : Generation}
    (h : (service.reading (.python decodeError repr reprStr)).gradeNotesPlusModel context
      (.ok (client.complete prompt)) = .ok g) : Generated g context.chunkIds [] := by
  have hread := @MockChatClient.parse_notesPlusModel client prompt decodeError repr reprStr context
    hversion hcited
  unfold RoutedChatService.gradeNotesPlusModel Generation.grade at h
  dsimp only [RoutedChatService.json, RoutedChatService.reading, QueryService.reading] at h
  rw [hread] at h
  cases h
  exact ⟨rfl, rfl, rfl, rfl, rfl, rfl⟩

theorem generated_notesPlusKnowledge (service : RoutedChatService) (context : AnswerContext)
    {prompt : AnswerPrompt} (hversion : prompt.promptVersion = notesPlusKnowledgePromptVersion)
    (hcited : prompt.citedChunkIds = context.chunkIds) {g : Generation}
    (h : (service.reading (.python decodeError repr reprStr)).gradeNotesPlusKnowledge context
      prompt.knowledgeRefs (.ok (client.complete prompt)) = .ok g) :
    Generated g context.chunkIds prompt.knowledgeRefs := by
  have hread := @MockChatClient.parse_notesPlusKnowledge client prompt decodeError repr reprStr
    context hversion hcited
  unfold RoutedChatService.gradeNotesPlusKnowledge Generation.grade at h
  dsimp only [RoutedChatService.json, RoutedChatService.reading, QueryService.reading] at h
  rw [hread] at h
  cases h
  exact ⟨rfl, rfl, rfl, rfl, rfl, rfl⟩

theorem finishMixed (service : RoutedChatService) (query : Query)
    (candidates : RetrievedCandidates) (context : AnswerContext) (version : String)
    (g : Generation) : client.pact.Ensures (service.finishMixed query candidates context version g)
      fun a => a = { fallback := g.fallback, queryText := query.queryText
                     evidence := candidates.merged.map FusedHit.evidence, context := some context
                     answerText := g.answerText, citedChunkIds := g.citedChunkIds
                     modelText := g.modelText, knowledgeText := g.knowledgeText
                     knowledgeRefs := g.knowledgeRefs } :=
  skip fun _ => skip fun _ => skip fun _ => ensures_pure rfl

/-- The result of a generation over the evidence. -/
theorem Generated.mocked {g : Generation} {query : Query} {merged : List FusedHit}
    {refs : List String} {a : AnswerResult} {route : ChatRoute} (hmixed : route.isMixed = true)
    (h : Generated g (assembleAnswerContext query merged).chunkIds refs)
    (ha : a = { fallback := g.fallback, queryText := query.queryText
                evidence := merged.map FusedHit.evidence
                context := some (assembleAnswerContext query merged), answerText := g.answerText
                citedChunkIds := g.citedChunkIds, modelText := g.modelText
                knowledgeText := g.knowledgeText, knowledgeRefs := g.knowledgeRefs }) :
    a.Mocked route := by
  subst ha
  rw [chunkIds_eq] at h
  refine ⟨h.cited, ?_, ?_, ?_, ?_⟩
  · have hroute : route ≠ .modelOnly := by
      rintro rfl
      cases hmixed
    dsimp only
    rw [h.fallback, MockChatClient.notesSegment]
    by_cases hnone : merged.map FusedHit.evidence = []
    · have hids : (merged.map FusedHit.evidence).map Evidence.chunkId = [] :=
        List.map_eq_nil_iff.mpr hnone
      rw [if_pos hids, if_pos ⟨hnone, hroute⟩]
      rfl
    · rw [if_neg fun he => hnone (List.map_eq_nil_iff.mp he), if_neg fun he => hnone he.1]
      rfl
  · dsimp only
    rw [h.cited, h.answerText]
    cases route <;> first | rfl | cases hmixed
  · dsimp only
    rw [h.modelText, if_pos hmixed]
    rfl
  · dsimp only
    rw [h.knowledgeText, h.knowledgeRefs]

theorem answerNotesPlusModel (service : RoutedChatService) (message : InboundMessage)
    (question : String) (subjectScope : Option String) : client.pact.Ensures
      ((service.reading (.python decodeError repr reprStr)).answerNotesPlusModel message question
        subjectScope) fun r => r.1.Mocked .notesPlusModel := by
  refine skip fun _ => skip fun _ => skip fun _ => skip fun candidates => ?_
  refine ensures_bind _ (ensures_ofExcept _) fun prompt hprompt => ?_
  refine ensures_bind _ (complete prompt) fun reply hreply => ?_
  subst hreply
  refine ensures_bind _ (ensures_ofExcept _) fun g hg => ensures_bind _ (finishMixed ..) fun a ha => ?_
  obtain ⟨_, -, hprompt⟩ := ok_of_bind hprompt
  cases hprompt
  exact ensures_pure ((generated_notesPlusModel service _ rfl rfl hg).mocked rfl ha)

theorem answerNotesPlusKnowledge (service : RoutedChatService) (message : InboundMessage)
    (question : String) (subjectScope : Option String) : client.pact.Ensures
      ((service.reading (.python decodeError repr reprStr)).answerNotesPlusKnowledge message question
        subjectScope) fun r => r.1.Mocked .notesPlusKnowledge := by
  unfold RoutedChatService.answerNotesPlusKnowledge
  split
  · exact ensures_throw _
  refine skip fun _ => skip fun _ => skip fun _ => skip fun candidates => skip fun _ => ?_
  refine skip fun found => ensures_bind _ (ensures_ofExcept _) fun prompt hprompt => ?_
  refine ensures_bind _ (complete prompt) fun reply hreply => ?_
  subst hreply
  refine ensures_bind _ (ensures_ofExcept _) fun g hg => ensures_bind _ (finishMixed ..) fun a ha => ?_
  obtain ⟨_, -, hprompt⟩ := ok_of_bind hprompt
  cases hprompt
  exact ensures_pure ((generated_notesPlusKnowledge service _ rfl rfl hg).mocked rfl ha)

theorem answerModelOnly (service : RoutedChatService) (message : InboundMessage)
    (question : String) : client.pact.Ensures
      ((service.reading (.python decodeError repr reprStr)).answerModelOnly message question)
      fun r => r.1.Mocked .modelOnly := by
  refine skip fun _ => skip fun _ => ensures_bind _ (complete _) fun reply hreply => ?_
  subst hreply
  refine ensures_bind _ (ensures_ofExcept _) fun g hg => skip fun _ => skip fun _ => skip fun _ => ?_
  have hread := @MockChatClient.parse_modelOnly client (buildModelOnlyPrompt question) decodeError
    repr reprStr rfl
  unfold RoutedChatService.gradeModelOnly Generation.grade at hg
  dsimp only [RoutedChatService.json, RoutedChatService.reading, QueryService.reading] at hg
  rw [hread] at hg
  cases hg
  exact ensures_pure ⟨rfl, rfl, rfl, rfl, rfl⟩

/-- Nothing was retrieved, for want of a search. -/
theorem mocked_unavailable (question : String) {route : ChatRoute} (h : route ≠ .modelOnly) :
    (RoutedChatService.retrievalUnavailable question).answer.Mocked route := by
  refine ⟨rfl, (if_pos ⟨rfl, h⟩).symm, ?_, ?_, rfl⟩
  · cases route with
    | modelOnly => exact absurd rfl h
    | _ => rfl
  · cases route <;> rfl

theorem orUnavailable {question : String} {p : Proc RoutedChatService.Routed} {route : ChatRoute}
    (hroute : route ≠ .modelOnly)
    (h : client.pact.Ensures p fun routed => routed.answer.Mocked route) :
    client.pact.Ensures (RoutedChatService.orUnavailable question p)
      fun routed => routed.answer.Mocked route := by
  refine ensures_bind _ (ensures_capture h) fun r hr => ?_
  split
  · exact ensures_pure (mocked_unavailable question hroute)
  · exact ensures_throw _
  · next routed => exact ensures_pure (hr routed rfl)

theorem answerBy (service : RoutedChatService) (message : InboundMessage) (question : String)
    (subjectScope : Option String) (route : ChatRoute) : client.pact.Ensures
      ((service.reading (.python decodeError repr reprStr)).answerBy message question subjectScope
        route) fun routed => routed.answer.Mocked route := by
  cases route with
  | modelOnly =>
    exact ensures_bind _ (answerModelOnly ..) fun r hr => ensures_pure hr
  | notesPlusModel =>
    exact orUnavailable nofun (ensures_bind _ (answerNotesPlusModel ..) fun r hr => ensures_pure hr)
  | notesPlusKnowledge =>
    exact orUnavailable nofun
      (ensures_bind _ (answerNotesPlusKnowledge ..) fun r hr => ensures_pure hr)
  | notesLookup =>
    exact orUnavailable nofun (ensures_bind _ (answer ..) fun a ha => ensures_pure ha)

theorem chat (service : RoutedChatService) (message : InboundMessage)
    (subjectScope : Option String) : client.pact.Ensures
      ((service.reading (.python decodeError repr reprStr)).chat message subjectScope)
      fun res => res.answer.Mocked res.effectiveRoute := by
  unfold RoutedChatService.chat
  dsimp only
  split
  · exact ensures_throw _
  refine skip fun classified => ensures_bind _ (answerBy ..) fun routed hrouted => ?_
  exact skip fun _ => skip fun _ => skip fun _ => skip fun _ => skip fun _ => ensures_pure hrouted

end Mocked

/-! ## Runs -/

/-- Every store with this client keeps the pact. -/
theorem MockChatClient.honours_serve (client : MockChatClient) (B : Backend) (env : Env) :
    client.pact.Honours (serve B (env.withChat client)) fun _ => True := by
  rintro (c | c) w - -
  · exact ⟨trivial, trivial⟩
  · cases c with
    | complete prompt => exact ⟨rfl, trivial⟩
    | _ => exact ⟨trivial, trivial⟩

/-- In every state, whatever the other providers and the store do, an answer that is returned with
the mock chat client is a mocked one, also while any other requests run. -/
theorem mocked_answers (kind : StoreKind) (engine : SearchEngine) (env : Env)
    (client : MockChatClient) (decodeError : String → JsonDecodeError) (repr : Json → String)
    (reprStr : String → String) :
    let B := kind.backend engine
    let json := JsonModule.python decodeError repr reprStr
    let handler := serve B (env.withChat client)
    (∀ (service : QueryService) (message : InboundMessage) (dateRange : Option DateRange)
      (subjectScope : Option String) (w : World B.State) (a : AnswerResult),
      (((service.reading json).answer message dateRange subjectScope).exec B (env.withChat client)
        w).1 = .ok a → a.Mocked .notesLookup) ∧
    ∀ (service : RoutedChatService) (message : InboundMessage) (subjectScope : Option String)
      (ι : Type) [DecidableEq ι] (p : Pool ι Call Reply (Except Exn RoutedChatResult) (World B.State))
      (i : ι) (schedule : List ι) (res : RoutedChatResult),
      p.progs i = ((service.reading json).chat message subjectScope).run →
      (p.run handler schedule).progs i = .ret (.ok res) → res.answer.Mocked res.effectiveRoute := by
  intro B json handler
  have hP := client.honours_serve B env
  refine ⟨fun service message dateRange subjectScope w a ha =>
    (Mocked.answer service message dateRange subjectScope).exec hP trivial ha, ?_⟩
  intro service message subjectScope ι _ p i schedule res hi hres
  have hprogs : ∀ j, (p.progs j).wp client.pact.contract
      (fun r _ => j = i → ∀ res, r = .ok res → res.answer.Mocked res.effectiveRoute) () := by
    intro j
    by_cases hj : j = i
    · subst hj
      rw [hi]
      exact Prog.wp_mono _ (fun _ _ hr _ => hr) (Mocked.chat service message subjectScope).keeps
    · exact wp_any (fun _ => trivial) (fun _ he => absurd he hj) _
  have hlast := (Pool.run_of_honours hP schedule hprogs trivial).1 i
  rw [hres] at hlast
  exact hlast rfl res rfl

end DiaryMemory
