import DiaryMemory.Chatting
import DiaryMemory.Dispatcher
import DiaryMemory.Ingestion

/-!
# What the dispatcher does

Serving a message makes the calls of the service its route names (`DispatchCall`). Only
`/ask` writes the cache of cited chunks, and what it writes there are chunks that can be
shown to the community at that moment (`AskEnd.servable`); `/sources` reads it.
-/

namespace DiaryMemory

variable {kind : StoreKind} {engine : SearchEngine} {env : Env}
  {P : Call → Tables → Prop} {w : World (kind.backend engine).State}

/-! ## Answers -/

/-- What an answer shows, its evidence and the chunks it cites, can be shown to the
community. -/
structure AnswerResult.ServableIn (a : AnswerResult) (T : Tables) (community : String) : Prop where
  evidence : ∀ e ∈ a.evidence, ∃ c, T.Servable community c ∧ c.chunkId = e.chunkId ∧
    c.noteDate = e.noteDate ∧ c.chunkText = e.chunkText
  cited : ∀ c ∈ Dispatcher.citedChunks a, T.Servable community c

theorem AnswerResult.ServableIn.of_context {a : AnswerResult} {T : Tables} {community : String}
    {context : AnswerContext} {found : RetrievedCandidates} (hfound : Candidates T community found)
    (hevidence : a.evidence = found.merged.map FusedHit.evidence) (hcontext : a.context = some context)
    (hchunks : context.orderedChunks = found.merged.map FusedHit.chunk) :
    a.ServableIn T community where
  evidence e he := by
    rw [hevidence] at he
    obtain ⟨m, hm, rfl⟩ := List.mem_map.mp he
    exact ⟨m.chunk, hfound.merged m hm, rfl, rfl, rfl⟩
  cited c hc := by
    simp only [Dispatcher.citedChunks, hcontext, List.mem_filter, hchunks] at hc
    obtain ⟨m, hm, rfl⟩ := List.mem_map.mp hc.1
    exact hfound.merged m hm

theorem AnswerResult.ServableIn.bare {a : AnswerResult} {T : Tables} {community : String}
    (hevidence : a.evidence = []) (hcontext : a.context = none) : a.ServableIn T community where
  evidence e he := by simp [hevidence] at he
  cited c hc := by simp [Dispatcher.citedChunks, hcontext] at hc

theorem Answered.servableIn {service : QueryService} {community : String}
    {w' : World (kind.backend engine).State} {a : AnswerResult} {context : AnswerContext}
    {found : RetrievedCandidates} {g : Graded}
    (h : Answered env service community w w' a context found g) : a.ServableIn w.rows community := by
  obtain ⟨queryText, rfl⟩ := h.result
  exact .of_context h.candidates rfl rfl h.chunks

theorem MixedAnswered.servableIn
    {grade : AnswerContext → Except Exn ChatResponse → Except Exn Generation}
    {community queryId : String} {w' : World (kind.backend engine).State} {a : AnswerResult}
    {context : AnswerContext} {found : RetrievedCandidates} {g : Generation}
    (h : MixedAnswered env grade community queryId w w' a context found g) :
    a.ServableIn w.rows community := by
  obtain ⟨queryText, rfl⟩ := h.result
  exact .of_context h.candidates rfl rfl h.chunks

/-- What the route of a chat shows can be shown to the community. -/
theorem RoutedEnd.servableIn {service : RoutedChatService} {community question : String}
    {route : ChatRoute} {routed : RoutedChatService.Routed}
    {w' : World (kind.backend engine).State}
    (h : RoutedEnd env service community question w route routed w') :
    routed.answer.ServableIn w.rows community := by
  cases h with
  | unavailable h => exact .bare rfl rfl
  | notesLookup h => exact h.servableIn
  | modelOnly h =>
    rw [h.result]
    exact .bare rfl rfl
  | notesPlusModel h => exact h.servableIn
  | notesPlusKnowledge hf h => exact h.servableIn

/-- The answer `/ask` gives : the answer of the query service, or the synthetic one. -/
inductive AskAnswer (env : Env) (service : QueryService) (message : InboundMessage)
    (w w' : World (kind.backend engine).State) : AnswerResult → Prop
  | unavailable {text : String}
      (h : Fault env service.Ungraded message.communityId w w' (.notImplementedError text)) :
      AskAnswer env service message w w'
        { fallback := .noEvidence, queryText := PyText.strip message.payload }
  | answered {a : AnswerResult} {context : AnswerContext} {found : RetrievedCandidates} {g : Graded}
      (h : Answered env service message.communityId w w' a context found g) :
      AskAnswer env service message w w' a

theorem AskAnswer.servableIn {service : QueryService} {message : InboundMessage}
    {w' : World (kind.backend engine).State} {a : AnswerResult}
    (h : AskAnswer env service message w w' a) : a.ServableIn w.rows message.communityId := by
  cases h with
  | unavailable h => exact .bare rfl rfl
  | answered h => exact h.servableIn

section Asking

variable {dispatcher : Dispatcher} {message : InboundMessage}

/-- Where `/ask` may end. -/
def AskEnd (env : Env) (dispatcher : Dispatcher) (message : InboundMessage)
    (w : World (kind.backend engine).State) :
    Except Exn DispatchResult → World (kind.backend engine).State → Prop
  | .ok r, w' => ∃ a w₁, AskAnswer env dispatcher.query message w w₁ a ∧ Asking w w₁ ∧
    r = { replyText := formatAnswerReply a, route := .ask
          metadata := Dispatcher.pathMetadata message a.fallback [] } ∧
    w'.store = w₁.store ∧
    w'.latestSources = w₁.latestSources.put (message.communityId, Dispatcher.citedChunks a)
  | .error e, w' => Fault env dispatcher.query.Ungraded message.communityId w w' e ∧ Asking w w'

theorem wp_answerAsk (hs : Sound env w) :
    wp (contract kind engine env (AnswerCall message.communityId)) (dispatcher.answerAsk message)
      (fun r w' => match r with
        | .ok a => AskAnswer env dispatcher.query message w w' a
        | .error e => Fault env dispatcher.query.Ungraded message.communityId w w' e) w := by
  have hsynthetic : ∀ {text : String} {w' : World (kind.backend engine).State},
      Fault env dispatcher.query.Ungraded message.communityId w w' (.notImplementedError text) →
      AskAnswer env dispatcher.query message w w'
        { fallback := .noEvidence, queryText := PyText.strip message.payload } := .unavailable
  unfold Dispatcher.answerAsk
  generalize PyText.strip message.payload = text at hsynthetic ⊢
  rw [wp_bind]
  refine (wp_capture _ _ w).mpr (wp_imp (fun r w' h => ?_) (wp_answer message none none hs))
  simp only [onValue]
  split
  · exact hsynthetic h
  · exact h
  · obtain ⟨context, found, g, h⟩ := h
    exact .answered h

/-- What `/ask` promises of its calls : those of a question, and one write of the cache,
with chunks that can be shown. -/
def AskCall (community : String) (c : Call) (T : Tables) : Prop :=
  AnswerCall community c T ∨ ∃ chunks, c = .sys (.setLatestSources community chunks) ∧
    ∀ chunk ∈ chunks, T.Servable community chunk

theorem Tables.SameContent.servable {T T' : Tables} (h : T.SameContent T') {community : String}
    {c : EventChunk} (hc : T.Servable community c) : T'.Servable community c :=
  ⟨h.eventChunks ▸ hc.1, hc.2⟩

theorem wp_dispatchAsk (hs : Sound env w) :
    wp (contract kind engine env (AskCall message.communityId)) (dispatcher.dispatchAsk message)
      (AskEnd env dispatcher message w) w := by
  unfold Dispatcher.dispatchAsk
  refine wp_seq hs (wp_promise (fun _ _ => .inl) (wp_asking (wp_answerAsk hs))) (fun e w₁ _ h => h)
    fun a w₁ hs₁ h => ?_
  obtain ⟨ha, hasking⟩ := h
  rw [wp_bind]
  refine (wp_ask (Proc.sys (.setLatestSources message.communityId (Dispatcher.citedChunks a))) _
    w₁).mpr (wp_sys (.inr ⟨_, rfl, fun c hc => hasking.content.servable (ha.servableIn.cited c hc)⟩)
    fun _ w₂ _ ht hset => ⟨a, w₁, ha, hasking, rfl, ht.store, hset⟩)

end Asking

/-! ## Serving a message -/

section Serving

variable {dispatcher : Dispatcher} {message : InboundMessage}

/-- Where `/sources` may end : it shows what the cache holds for the community. -/
def SourcesEnd (message : InboundMessage) (w : World (kind.backend engine).State) :
    Except Exn DispatchResult → World (kind.backend engine).State → Prop
  | .ok r, w' => Later w w' ∧
    r.sourceChunks.getD [] = ((w.latestSources.find? message.communityId).map Prod.snd).getD []
  | .error _, _ => False

theorem wp_dispatchSources (hP : ∀ T, P (.sys (.getLatestSources message.communityId)) T) :
    wp (contract kind engine env P) (Dispatcher.dispatchSources message) (SourcesEnd message w) w := by
  unfold Dispatcher.dispatchSources
  rw [wp_bind]
  refine (wp_ask (Proc.sys (.getLatestSources message.communityId)) _ w).mpr
    (wp_sys (hP _) fun r w' _ ht hr => ?_)
  have hl : Later w w' := ht.later rfl nofun
  have hr' : r = (w.latestSources.find? message.communityId).map Prod.snd := hr
  simp only [onValue]
  split
  · exact ⟨hl, by rw [← hr']⟩
  · exact ⟨hl, by rw [← hr']; rfl⟩
  · exact ⟨hl, by rw [← hr']⟩

/-- What serving a message promises of its calls. -/
def DispatchCall (env : Env) (dispatcher : Dispatcher) (message : InboundMessage) (T₀ : Tables)
    (c : Call) (T : Tables) : Prop :=
  match message.route with
  | .note | .draft =>
    IngestPromise env dispatcher.domain.embeddingClient message.communityId T₀ c T
  | .ask => AskCall message.communityId c T
  | .chat => AnswerCall message.communityId c T
  | .sources => c = .sys (.getLatestSources message.communityId)
  | .drafts | .export_ => QuietCall c T
  | .delete => DeleteCall message.communityId c T
  | _ => False

/-- Where serving a message may end. -/
def DispatchEnd (env : Env) (dispatcher : Dispatcher) (message : InboundMessage)
    (w : World (kind.backend engine).State) (r : Except Exn DispatchResult)
    (w' : World (kind.backend engine).State) : Prop :=
  match message.route with
  | .ask => AskEnd env dispatcher message w r w'
  | .chat => match r with
    | .ok r => r.sourceChunks = none ∧ ∀ service ∈ dispatcher.routedChat, ∃ res,
      r.replyText = formatChatReply res ∧
      ChatEnd env service message.communityId (PyText.strip message.payload) w (.ok res) w'
    | .error _ => True
  | .sources => SourcesEnd message w r w'
  | _ => ∀ result, r = .ok result → result.sourceChunks = none

/-- The reply of a service that shows no chunks. -/
def Plain (r : Except Exn DispatchResult) (_ : World (kind.backend engine).State) : Prop :=
  ∀ result, r = .ok result → result.sourceChunks = none

theorem wp_dispatchNote (hs : Sound env w)
    (hP : ∀ c T, IngestPromise env dispatcher.domain.embeddingClient message.communityId
      w.rows c T → P c T) :
    wp (contract kind engine env P) (dispatcher.dispatchNote message) Plain w := by
  unfold Dispatcher.dispatchNote
  dsimp only
  generalize normalizeNotePayload message.payload message.receivedAt.date = payload
  set normalized : InboundMessage := { message with payload := payload }
  have hingest : wp (contract kind engine env P) (dispatcher.domain.ingest normalized)
      (IngestOutcome env dispatcher.domain normalized w) w := wp_ingest hs hP
  refine wp_seq hs hingest (fun e w₁ _ _ => nofun) fun result w₁ _ _ => ?_
  rw [wp_bind, wp_ofExcept]
  cases formatIngestReply result with
  | error e => exact nofun
  | ok text =>
    intro r hr
    cases hr
    rfl

theorem wp_dispatchDraft (hs : Sound env w)
    (hP : ∀ c T, IngestPromise env dispatcher.domain.embeddingClient message.communityId
      w.rows c T → P c T) :
    wp (contract kind engine env P) (dispatcher.dispatchDraft message) Plain w := by
  refine wp_seq hs (wp_ingest hs hP) (fun e w₁ _ _ => nofun) fun result w₁ _ _ r hr => ?_
  cases hr
  rfl

theorem wp_dispatchDelete (hs : Sound env w)
    (hP : ∀ c T, DeleteCall message.communityId c T → P c T) :
    wp (contract kind engine env P) (Dispatcher.dispatchDelete message) Plain w := by
  unfold Dispatcher.dispatchDelete
  split
  · intro r hr
    cases hr
    rfl
  · refine wp_seq hs (wp_deleteNote hs _ _ _ hP) (fun e w₁ _ _ => nofun) fun outcome w₁ _ _ r hr => ?_
    cases hr
    rfl

theorem wp_dispatchDrafts (hP : ∀ c T, QuietCall c T → P c T) :
    wp (contract kind engine env P) (dispatcher.dispatchDrafts message) Plain w := by
  unfold Dispatcher.dispatchDrafts
  generalize dispatcher.requestedDrafts message.payload = requested
  split
  · intro r hr
    cases hr
    rfl
  · unfold DomainService.listRecentDrafts
    split
    · exact nofun
    refine wp_repo_bind ⟨trivial, nofun⟩ (hP _ _ trivial) (fun e w₁ _ _ => nofun)
      fun drafts w₁ _ _ => ?_
    dsimp only
    split <;>
    · intro r hr
      cases hr
      rfl

/-- The document of an export. -/
def exportContent (messages : List SourceMessage) (community requester : String)
    (generatedAt : DateTime) : ExportFormat → String
  | .json => serializeJson messages community requester generatedAt
  | .txt => serializeTxt messages community requester generatedAt

/-- Where an export may end : without a community, on a store that can not list its source
rows, and where the call fails, it raises. -/
def ExportEnd (env : Env) (community requester : String) (format : ExportFormat)
    (w : World (kind.backend engine).State) :
    Except Exn ExportPayload → World (kind.backend engine).State → Prop
  | .ok payload, w' => w'.rows = w.rows ∧
    payload.content = exportContent (w.rows.listSourceMessages community none) community requester
      payload.generatedAt format ∧
    payload.recordCount = (w.rows.listSourceMessages community none).length
  | .error _, w' => w'.rows = w.rows ∧ (community = "" ∨ kind = .sql .sqlite ∨
    ∃ n, (env.storeFails n (.listSourceMessages community none)).isSome)

theorem wp_exportRaw (community requester : String) (format : ExportFormat)
    (hP : ∀ c T, QuietCall c T → P c T) :
    wp (contract kind engine env P) (exportRaw community requester format)
      (ExportEnd env community requester format w) w := by
  unfold exportRaw
  by_cases hcommunity : community = ""
  · rw [if_pos hcommunity]
    exact ⟨rfl, .inl hcommunity⟩
  · rw [if_neg hcommunity]
    refine wp_now_bind (hP _ _ trivial) fun now w₁ _ ht => ?_
    refine wp_repo_bind ⟨trivial, nofun⟩ (hP _ _ trivial)
      (fun e w₂ _ hr => ⟨hr.rows.trans ht.rows, .inr ?_⟩) fun messages w₂ _ hr => ?_
    · obtain ⟨n, -, hfails | ⟨-, hkind | hnone | hlimit⟩⟩ := hr.why
      · exact .inr ⟨n, hfails ▸ rfl⟩
      · exact .inl hkind
      · exact absurd hnone hcommunity
      · exact absurd hlimit Bool.false_ne_true
    have hmessages : messages = w.rows.listSourceMessages community none := by
      rw [← ht.rows]
      exact hr.value
    have hrows : w₂.rows = w.rows := Eq.trans hr.rows ht.rows
    rw [hmessages]
    cases format <;> exact ⟨hrows, rfl, rfl⟩

theorem wp_dispatchExport (hs : Sound env w) (hP : ∀ c T, QuietCall c T → P c T) :
    wp (contract kind engine env P) (Dispatcher.dispatchExport message) Plain w := by
  unfold Dispatcher.dispatchExport
  generalize Dispatcher.requestedFormat message.payload = requested
  split
  · intro r hr
    cases hr
    rfl
  · refine wp_seq hs (wp_exportRaw _ _ _ hP) (fun e w₁ _ _ => nofun) fun payload w₁ _ _ r hr => ?_
    cases hr
    rfl

theorem wp_dispatchChat (hs : Sound env w) :
    wp (contract kind engine env (AnswerCall message.communityId)) (dispatcher.dispatchChat message)
      (fun r w' => match r with
        | .ok r => r.sourceChunks = none ∧ ∀ service ∈ dispatcher.routedChat, ∃ res,
          r.replyText = formatChatReply res ∧
          ChatEnd env service message.communityId (PyText.strip message.payload) w (.ok res) w'
        | .error _ => True) w := by
  unfold Dispatcher.dispatchChat
  cases hservice : dispatcher.routedChat with
  | none => exact ⟨rfl, nofun⟩
  | some service =>
    refine wp_seq hs (wp_chat hs) (fun _ _ _ _ => trivial) fun res w₁ _ h => ⟨rfl, ?_⟩
    intro service' hs'
    cases hs'
    exact ⟨res, rfl, h⟩

/-- A message is served. -/
theorem wp_dispatch (hs : Sound env w) :
    wp (contract kind engine env (DispatchCall env dispatcher message w.rows))
      (dispatcher.dispatch message)
      (DispatchEnd env dispatcher message w) w := by
  have hfixed : ∀ {r : DispatchResult}, r.sourceChunks = none → Plain (.ok r) w := by
    intro r hr result he
    cases he
    exact hr
  unfold Dispatcher.dispatch DispatchEnd DispatchCall
  cases hroute : message.route with
  | note => exact wp_dispatchNote hs fun _ _ h => h
  | draft => exact wp_dispatchDraft hs fun _ _ h => h
  | ask => exact wp_dispatchAsk hs
  | chat => exact wp_dispatchChat hs
  | sources => exact wp_dispatchSources fun _ => rfl
  | drafts => exact wp_dispatchDrafts fun _ _ h => h
  | export_ => exact wp_dispatchExport hs fun _ _ h => h
  | delete => exact wp_dispatchDelete hs fun _ _ h => h
  | start | help | clarify | unknown => exact hfixed rfl

end Serving

end DiaryMemory
