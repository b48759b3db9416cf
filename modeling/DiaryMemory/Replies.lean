import DiaryMemory.Asking
import DiaryMemory.Exchange

/-!
# What a message is answered with

The services keep to `exchange`, part by part : an ingest brings the row and the chunk of its
message, an answer cites chunks of the community it was asked in, and everything else brings
nothing. So the document, the drafts and the chunks that `Dispatcher.dispatch` returns were said
in the community of its message (`ensures_dispatch`).
-/

namespace DiaryMemory

open Pact

namespace Exchange

variable {said : InboundMessage → Prop} {α β : Type}

/-! ## Calls -/

theorem asking {c : SystemCall} (h : (exchange said).asks (.sys c)) :
    (exchange said).Ensures (ask (Proc.sys c) : Proc (SystemReply c)) fun _ => True :=
  ensures_sys h

theorem uuid4 : (exchange said).Ensures Proc.uuid4 fun _ => True := asking trivial

theorem now : (exchange said).Ensures Proc.now fun _ => True := asking trivial

/-- A provider is asked. -/
theorem provider {p : Proc α} (h : (exchange said).Ensures p fun _ => True) :
    (exchange said).Ensures (capture p) fun _ => True :=
  (ensures_capture h).imp fun _ _ => trivial

/-! ## Ingests and removals -/

theorem routine : (exchange said).Routine := by
  rintro (c | c) hc
  · cases c with
    | getOrCreateSourceMessage | saveEventChunks => exact hc.elim
    | _ => trivial
  · cases c with
    | setLatestSources => exact hc.elim
    | _ => trivial

open DomainService in
/-- The chunk of a new note holds the body of its message. -/
theorem ingests (service : DomainService) {message : InboundMessage} (hsaid : said message) :
    (exchange said).Ingests service message where
  routine := routine
  source id now := ⟨message, hsaid, id, now, rfl⟩
  chunks source now parsed hparsed chunks hchunks c hc := by
    obtain ⟨noteId, priorNote, chunkId, priorChunk, rfl⟩ := hchunks c hc
    exact ⟨message, hsaid, rfl, rfl, parsed, hparsed, rfl, rfl⟩
  records _ _ _ _ _ _ _ := trivial

theorem ingest (service : DomainService) {message : InboundMessage} (hsaid : said message) :
    (exchange said).Ensures (service.ingest message) fun _ => True :=
  (ingests service hsaid).ingest

/-! ## Answers -/

/-- What a retrieval merges was said in the community. -/
theorem retrieve (service : QueryService) (community text : String) (dateRange : Option DateRange)
    (subjectScope : Option String) : (exchange said).Ensures
      (service.retrieve community text dateRange subjectScope)
      fun found => ∀ h ∈ found.merged, h.chunk.communityId = community ∧ h.chunk.Of said := by
  unfold QueryService.retrieve
  split
  · exact ensures_throw _
  refine ensures_seq (ensures_attempt ⟨trivial, fun _ _ _ _ _ => trivial⟩) fun vectors => ?_
  cases vectors with
  | nil => exact ensures_throw _
  | cons vector vectors =>
    refine ensures_bind (fun rows : List EventChunk => ∀ c ∈ rows, c.communityId = community ∧
      c.Of said) (ensures_attempt ⟨trivial, fun r _ hr => hr⟩) fun dense hdense => ?_
    refine ensures_bind (fun rows : List EventChunk => ∀ c ∈ rows, c.communityId = community ∧
      c.Of said) (ensures_attempt ⟨trivial, fun r _ hr => hr⟩) fun sparse hsparse => ?_
    refine ensures_bind _ (ensures_ofExcept _) fun merged hmerged => ensures_pure fun h hh => ?_
    obtain ⟨ranking, hranking, hc⟩ := mem_of_mem_fusion hmerged hh
    rcases List.mem_pair.mp hranking with rfl | rfl
    · exact hdense _ hc
    · exact hsparse _ hc

/-- The context of an answer was said in the community. -/
def Grounded (said : InboundMessage → Prop) (community : String) (answer : AnswerResult) : Prop :=
  ∀ context, answer.context = some context → ∀ c ∈ context.orderedChunks,
    c.communityId = community ∧ c.Of said

theorem finalize {community : String} (query : Query) (candidates : RetrievedCandidates)
    (context : AnswerContext) (graded : Graded)
    (h : ∀ c ∈ context.orderedChunks, c.communityId = community ∧ c.Of said) :
    (exchange said).Ensures (QueryService.finalize query candidates context graded)
      (Grounded said community) :=
  ensures_seq (ensures_saveQueryAndHits routine ..) fun _ =>
    ensures_seq uuid4 fun _ => ensures_seq now fun _ =>
      ensures_seq (ensures_repo trivial) fun _ => ensures_pure fun _ hcontext => by
        rwa [← Option.some.inj hcontext]

theorem mem_orderedChunks {community : String} {query : Query} {merged : List FusedHit}
    (h : ∀ x ∈ merged, x.chunk.communityId = community ∧ x.chunk.Of said) :
    ∀ c ∈ (assembleAnswerContext query merged).orderedChunks,
      c.communityId = community ∧ c.Of said := by
  intro c hc
  obtain ⟨x, hx, rfl⟩ := List.mem_map.mp hc
  exact h x hx

theorem answer (service : QueryService) (message : InboundMessage) (dateRange : Option DateRange)
    (subjectScope : Option String) : (exchange said).Ensures
      (service.answer message dateRange subjectScope) (Grounded said message.communityId) := by
  unfold QueryService.answer
  split
  · exact ensures_throw _
  refine ensures_seq now fun createdAt => ensures_seq uuid4 fun queryId => ?_
  unfold QueryService.answerNew
  dsimp only
  split
  · exact finalize _ _ _ _ (mem_orderedChunks (by simp))
  · refine ensures_bind _ (retrieve ..) fun candidates hfound => ?_
    split
    · exact finalize _ _ _ _ (mem_orderedChunks hfound)
    · exact ensures_bind _ (ensures_ofExcept _) fun _ _ =>
        ensures_seq (provider (ensures_attempt ⟨trivial, fun _ _ _ _ _ => trivial⟩)) fun _ =>
          ensures_bind _ (ensures_ofExcept _) fun _ _ => finalize _ _ _ _ (mem_orderedChunks hfound)

/-! ## The routed chat -/

section Chat

open RoutedChatService

theorem finishMixed (service : RoutedChatService) (query : Query)
    (candidates : RetrievedCandidates) (context : AnswerContext) (promptVersion : String)
    (g : Generation) : (exchange said).Ensures
      (service.finishMixed query candidates context promptVersion g) fun _ => True :=
  ensures_seq (ensures_saveQueryAndHits routine ..) fun _ => ensures_seq uuid4 fun _ =>
    ensures_seq (ensures_repo trivial) fun _ => ensures_done _

theorem answerNotesPlusModel (service : RoutedChatService) (message : InboundMessage)
    (question : String) (subjectScope : Option String) : (exchange said).Ensures
      (service.answerNotesPlusModel message question subjectScope) fun _ => True :=
  ensures_seq now fun _ => ensures_seq uuid4 fun _ => ensures_seq (ensures_rewrite routine _) fun _ =>
    ensures_bind _ (retrieve ..) fun _ _ => ensures_bind _ (ensures_ofExcept _) fun _ _ =>
      ensures_seq (provider (ensures_attempt ⟨trivial, fun _ _ _ _ _ => trivial⟩)) fun _ =>
        ensures_bind _ (ensures_ofExcept _) fun _ _ => ensures_seq (finishMixed ..) fun _ => ensures_done _

theorem answerNotesPlusKnowledge (service : RoutedChatService) (message : InboundMessage)
    (question : String) (subjectScope : Option String) : (exchange said).Ensures
      (service.answerNotesPlusKnowledge message question subjectScope) fun _ => True := by
  unfold RoutedChatService.answerNotesPlusKnowledge
  split
  · exact ensures_throw _
  refine ensures_seq now fun _ => ensures_seq uuid4 fun _ => ?_
  refine ensures_seq (ensures_rewrite routine _) fun _ => ?_
  refine ensures_bind _ (retrieve ..) fun _ _ => ?_
  refine ensures_seq (ensures_rewriteOutward routine _ _) fun _ => ?_
  refine ensures_seq (ensures_searchKnowledge routine _) fun _ => ?_
  refine ensures_bind _ (ensures_ofExcept _) fun _ _ => ?_
  exact ensures_seq (provider (ensures_attempt ⟨trivial, fun _ _ _ _ _ => trivial⟩)) fun _ =>
    ensures_bind _ (ensures_ofExcept _) fun _ _ => ensures_seq (finishMixed ..) fun _ => ensures_done _

theorem answerModelOnly (service : RoutedChatService) (message : InboundMessage)
    (question : String) :
    (exchange said).Ensures (service.answerModelOnly message question) fun _ => True :=
  ensures_seq now fun _ => ensures_seq uuid4 fun _ =>
    ensures_seq (provider (ensures_attempt ⟨trivial, fun _ _ _ _ _ => trivial⟩)) fun _ =>
      ensures_bind _ (ensures_ofExcept _) fun _ _ => ensures_seq (ensures_repo trivial) fun _ =>
        ensures_seq uuid4 fun _ => ensures_seq (ensures_repo trivial) fun _ => ensures_done _

theorem answerBy (service : RoutedChatService) (message : InboundMessage) (question : String)
    (subjectScope : Option String) (route : ChatRoute) : (exchange said).Ensures
      (service.answerBy message question subjectScope route) fun _ => True := by
  cases route with
  | modelOnly => exact ensures_seq (answerModelOnly ..) fun _ => ensures_done _
  | notesPlusModel =>
    exact ensures_orUnavailable _ (ensures_seq (answerNotesPlusModel ..) fun _ => ensures_done _) trivial
  | notesPlusKnowledge =>
    exact ensures_orUnavailable _ (ensures_seq (answerNotesPlusKnowledge ..) fun _ => ensures_done _) trivial
  | notesLookup =>
    exact ensures_orUnavailable _ (ensures_bind _ (answer ..) fun _ _ => ensures_done _) trivial

theorem chat (service : RoutedChatService) (message : InboundMessage)
    (subjectScope : Option String) :
    (exchange said).Ensures (service.chat message subjectScope) fun _ => True :=
  (ensures_chat routine fun _ route => answerBy service message _ subjectScope route).imp
    fun _ _ => trivial

end Chat

end Exchange

/-! ## Results -/

/-- The caption of an export. -/
def exportCaption (count : Nat) (shown : String) : String :=
  "Exported " ++ toString count ++ " raw " ++ (if count = 1 then "message" else "messages") ++
    " as " ++ shown ++ "."

/-- A document of rows of a community, for a user who asked for it there. -/
inductive DocumentSaidIn (said : InboundMessage → Prop) (community : String) :
    (filename content mediaType caption : String) → Prop where
  | json {rows : List SourceMessage} {m : InboundMessage} (now : DateTime) (asked : said m)
      (hm : m.communityId = community) (hrows : ∀ s ∈ rows, s.communityId = community ∧ s.Of said) :
      DocumentSaidIn said community
        ("raw_export_" ++ community ++ "_" ++ now.fileStamp ++ "." ++ ExportFormat.json.value)
        (serializeJson rows community m.externalUserId now) "application/json"
        (exportCaption rows.length "JSON")
  | txt {rows : List SourceMessage} {m : InboundMessage} (now : DateTime) (asked : said m)
      (hm : m.communityId = community) (hrows : ∀ s ∈ rows, s.communityId = community ∧ s.Of said) :
      DocumentSaidIn said community
        ("raw_export_" ++ community ++ "_" ++ now.fileStamp ++ "." ++ ExportFormat.txt.value)
        (serializeTxt rows community m.externalUserId now) "text/plain; charset=utf-8"
        (exportCaption rows.length "TXT")

/-- What a result shows besides its text was said in a community, and the text beside it names
numbers only. -/
structure DispatchResult.SaidIn (said : InboundMessage → Prop) (community : String)
    (result : DispatchResult) : Prop where
  document : ∀ d, result.document = some d →
    DocumentSaidIn said community d.filename d.content d.mediaType result.replyText
  drafts : ∀ rows, result.drafts = some rows →
    (∃ returned requested explicit maxLimit,
      result.replyText = formatDraftsHeader returned requested explicit maxLimit) ∧
    ∀ s ∈ rows, s.communityId = community ∧ s.Of said
  sources : ∀ cs, result.sourceChunks = some cs → result.replyText = "" ∧
    ∀ c ∈ cs, c.communityId = community ∧ c.Of said

section Dispatch

open Exchange

variable {said : InboundMessage → Prop} {community : String}

/-- A text alone shows no row. -/
theorem DispatchResult.SaidIn.of_text {result : DispatchResult} (hdocument : result.document = none)
    (hdrafts : result.drafts = none) (hsources : result.sourceChunks = none) :
    result.SaidIn said community := by
  refine ⟨fun d h => ?_, fun rows h => ?_, fun cs h => ?_⟩
  · rw [hdocument] at h
    cases h
  · rw [hdrafts] at h
    cases h
  · rw [hsources] at h
    cases h

theorem ensures_text (result : DispatchResult) (hdocument : result.document = none := by rfl)
    (hdrafts : result.drafts = none := by rfl) (hsources : result.sourceChunks = none := by rfl) :
    (exchange said).Ensures (pure result : Proc DispatchResult) (DispatchResult.SaidIn said community) :=
  ensures_pure (.of_text hdocument hdrafts hsources)

theorem ensures_dispatchAsk (dispatcher : Dispatcher) (message : InboundMessage) :
    (exchange said).Ensures (dispatcher.dispatchAsk message)
      (DispatchResult.SaidIn said message.communityId) := by
  refine ensures_bind (Grounded said message.communityId) ?_ fun answer hanswer => ?_
  · refine ensures_bind _ (ensures_capture (Exchange.answer ..)) fun r hr => ?_
    split
    · exact ensures_pure fun _ h => by cases h
    · exact ensures_throw _
    · exact ensures_pure (hr _ rfl)
  · refine ensures_seq (asking fun c hc => ?_) fun _ => ensures_text _
    unfold Dispatcher.citedChunks at hc
    split at hc
    · cases hc
    · next context hcontext => exact hanswer context hcontext c (List.mem_filter.mp hc).1

theorem ensures_dispatchSources (message : InboundMessage) :
    (exchange said).Ensures (Dispatcher.dispatchSources message)
      (DispatchResult.SaidIn said message.communityId) := by
  refine ensures_bind (fun r : Option (List EventChunk) => ∀ cs, r = some cs → ∀ c ∈ cs,
    c.communityId = message.communityId ∧ c.Of said)
    (ensures_ask ⟨trivial, fun r _ hr => hr⟩) fun r hr => ?_
  split
  · exact ensures_text _
  · exact ensures_text _
  · next chunk chunks =>
    refine ensures_pure ⟨fun d h => (by cases h), fun rows h => (by cases h), fun cs h => ⟨rfl, ?_⟩⟩
    rw [← Option.some.inj h]
    exact hr _ rfl

theorem ensures_dispatchDrafts (dispatcher : Dispatcher) (message : InboundMessage) :
    (exchange said).Ensures (dispatcher.dispatchDrafts message)
      (DispatchResult.SaidIn said message.communityId) := by
  unfold Dispatcher.dispatchDrafts
  split
  · exact ensures_text _
  refine ensures_bind (fun rows : List SourceMessage => ∀ s ∈ rows,
    s.communityId = message.communityId ∧ s.Of said) ?_ fun rows hrows => ?_
  · unfold DomainService.listRecentDrafts
    split
    · exact ensures_throw _
    · exact ensures_attempt ⟨trivial, fun r _ hr => hr⟩
  · dsimp only
    split
    · exact ensures_text _
    · refine ensures_pure ⟨fun d h => (by cases h), fun rows' h => ⟨⟨_, _, _, _, rfl⟩, ?_⟩,
        fun cs h => (by cases h)⟩
      rwa [← Option.some.inj h]

/-- The format as the caption names it. -/
def ExportFormat.shown : ExportFormat → String
  | .json => "JSON"
  | .txt => "TXT"

theorem ensures_exportRaw {message : InboundMessage} (hsaid : said message)
    (format : ExportFormat) : (exchange said).Ensures
      (exportRaw message.communityId message.externalUserId format)
      fun d => DocumentSaidIn said message.communityId d.filename d.content d.mediaType
        (exportCaption d.recordCount format.shown) := by
  unfold exportRaw
  by_cases hcommunity : message.communityId = ""
  · rw [if_pos hcommunity]
    exact ensures_throw _
  rw [if_neg hcommunity]
  refine ensures_seq now fun now => ?_
  refine ensures_bind (fun rows : List SourceMessage => ∀ s ∈ rows,
    s.communityId = message.communityId ∧ s.Of said)
    (ensures_attempt ⟨trivial, fun r _ hr => hr⟩) fun rows hrows => ?_
  cases format with
  | json => exact ensures_pure (.json now hsaid rfl hrows)
  | txt => exact ensures_pure (.txt now hsaid rfl hrows)

theorem ensures_dispatchExport {message : InboundMessage} (hsaid : said message) :
    (exchange said).Ensures (Dispatcher.dispatchExport message)
      (DispatchResult.SaidIn said message.communityId) := by
  unfold Dispatcher.dispatchExport
  split
  · exact ensures_text _
  next format hformat =>
  refine ensures_bind _ (ensures_exportRaw hsaid format) fun payload hpayload => ensures_pure
    ⟨fun d h => ?_, fun rows h => (by cases h), fun cs h => (by cases h)⟩
  cases h
  cases format with
  | json => exact hpayload
  | txt => exact hpayload

/-- Whatever is served, what is shown was said in the community of the message. -/
theorem ensures_dispatch (dispatcher : Dispatcher) {message : InboundMessage} (hsaid : said message)
    (hdated : said { message with
      payload := normalizeNotePayload message.payload message.receivedAt.date }) :
    (exchange said).Ensures (dispatcher.dispatch message)
      (DispatchResult.SaidIn said message.communityId) := by
  unfold Dispatcher.dispatch
  split
  · exact ensures_text _
  · exact ensures_text _
  · exact ensures_seq (ingest _ hdated) fun _ =>
      ensures_bind _ (ensures_ofExcept _) fun _ _ => ensures_text _
  · exact ensures_seq (ingest _ hsaid) fun _ => ensures_text _
  · exact ensures_dispatchAsk dispatcher message
  · unfold Dispatcher.dispatchChat
    split
    · exact ensures_text _
    · exact ensures_seq (chat ..) fun _ => ensures_text _
  · exact ensures_dispatchSources message
  · exact ensures_dispatchDrafts dispatcher message
  · exact ensures_dispatchExport hsaid
  · unfold Dispatcher.dispatchDelete
    split
    · exact ensures_text _
    · exact ensures_seq (ensures_delete routine ..) fun _ => ensures_text _
  · exact ensures_text _
  · exact ensures_text _

end Dispatch

end DiaryMemory
