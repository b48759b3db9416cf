import DiaryMemory.Conduct
import DiaryMemory.Operations

/-!
# The calls of the services

`services` is the conduct of every service but the operator's : no row is made active again,
and no source row removed. The providers stand at stages, in the order in which one message can
reach them. A procedure is shown to stay within it part by part.

So a message asks each provider at most once, in that order (`asked_in_order`).
-/

namespace DiaryMemory

/-- The place of a provider call in the serving of one message. -/
def SystemCall.stage : SystemCall → Option ℕ
  | .embed _ | .classify _ => some 1
  | .rewrite .. => some 2
  | .embedQuery _ => some 3
  | .rewriteOutward .. => some 4
  | .search _ => some 5
  | .complete _ => some 6
  | _ => none

/-- No row is made active, and only source rows of `removable` are removed. -/
def RepoCall.Tame (removable : String → Prop) : RepoCall → Prop
  | .markNote state .. | .markChunk state .. => state ≠ .active
  | .hardDeleteSourceMessage id _ => removable id
  | _ => True

/-- The conduct of the services. -/
def services (removable : String → Prop) : Conduct Call where
  allows
    | .repo c => c.Tame removable
    | .sys _ => True
  stage
    | .repo _ => none
    | .sys c => c.stage

namespace Within

open Conduct

variable {removable : String → Prop} {α β : Type} {n lo hi : ℕ}

/-! ## Calls -/

theorem repo {c : RepoCall} (h : c.Tame removable) : (services removable).Within n n (Proc.repo c) :=
  within_attempt (wp_perform_iff.mpr
    ⟨⟨h, fun k hk => absurd hk (Option.not_mem_none k)⟩, fun _ => le_rfl⟩)

/-- A call outside the store that goes to no provider. -/
theorem aside {c : SystemCall} (h : c.stage = none) :
    (Proc.sys c).wp (services removable).contract (fun _ m => m ≤ n) n := by
  refine wp_perform_iff.mpr ⟨⟨trivial, fun k hk => ?_⟩, fun _ => ?_⟩
  · change k ∈ c.stage at hk
    rw [h] at hk
    exact absurd hk (Option.not_mem_none k)
  · change c.stage.getD n ≤ n
    rw [h]
    exact le_rfl

theorem uuid4 : (services removable).Within n n Proc.uuid4 := within_ask (aside rfl)

theorem now : (services removable).Within n n Proc.now := within_ask (aside rfl)

/-- Two parts that ask no provider. -/
theorem seq {p : Proc α} {f : α → Proc β} (hp : (services removable).Within n n p)
    (hf : ∀ a, (services removable).Within n n (f a)) :
    (services removable).Within n n (p >>= f) :=
  within_bind n hp le_rfl hf

theorem ofExcept (r : Except Exn α) : (services removable).Within n n (Proc.ofExcept r) := by
  cases r with
  | error e => exact within_throw e le_rfl
  | ok a => exact within_pure a le_rfl

/-- A call of a provider at its stage. -/
theorem provider {c : SystemCall} {k : ℕ} (hk : c.stage = some k) (hlo : lo < k) (hhi : k ≤ hi) :
    (Proc.sys c).wp (services removable).contract (fun _ n => n ≤ hi) lo := by
  refine wp_perform_iff.mpr ⟨⟨trivial, fun j hj => ?_⟩, fun _ => ?_⟩
  · rw [Option.mem_unique hj hk]
    exact hlo
  · change c.stage.getD lo ≤ hi
    rw [hk]
    exact hhi

/-! ## Ingests, removals and retries -/

theorem buildRecords (client : EmbeddingClient) (source community : String) (now : DateTime)
    (chunks : List EventChunk) (vectors : List Vec) : (services removable).Within n n
      (DiaryMemory.buildRecords client source community now chunks vectors) := by
  induction chunks generalizing vectors with
  | nil =>
    cases vectors with
    | nil => exact within_pure _ le_rfl
    | cons => exact within_throw _ le_rfl
  | cons chunk chunks ih =>
    cases vectors with
    | nil => exact within_throw _ le_rfl
    | cons vector vectors => exact seq uuid4 fun _ => seq (ih vectors) fun _ => within_pure _ le_rfl

theorem setStatuses (status : EmbeddingStatus) (chunks : List EventChunk) :
    (services removable).Within n n (DiaryMemory.setStatuses status chunks) := by
  induction chunks with
  | nil => exact within_pure _ le_rfl
  | cons chunk chunks ih => exact seq (repo trivial) fun _ => ih

section Domain

open DomainService

theorem reconstructResult (source : SourceMessage) :
    (services removable).Within n n (DomainService.reconstructResult source) := by
  unfold DomainService.reconstructResult
  split
  · exact within_pure _ le_rfl
  · refine seq (repo trivial) fun note => ?_
    cases note with
    | none => exact within_pure _ le_rfl
    | some note => exact seq (repo trivial) fun _ => within_pure _ le_rfl

theorem tombstone (chat msg community : String) : (services removable).Within n n
    (tombstoneActiveNoteForExternalMessage chat msg community) := by
  refine seq (repo trivial) fun note => ?_
  cases note with
  | none => exact within_pure _ le_rfl
  | some note =>
    have hflip : (services removable).Within n n (Proc.markNoteTombstoned note.noteId community) :=
      repo (by simp [RepoCall.Tame])
    refine seq (repo trivial) fun chunk => ?_
    cases chunk with
    | none => exact seq hflip fun _ => within_pure _ le_rfl
    | some chunk =>
      exact seq (repo (by simp [RepoCall.Tame])) fun _ => seq hflip fun _ => within_pure _ le_rfl

theorem embedChunks (client : EmbeddingClient) (chunks : List EventChunk) (source community : String)
    (now : DateTime) : (services removable).Within 0 1
      (DomainService.embedChunks client chunks source community now) := by
  refine within_bind 1 (within_capture (within_attempt (provider rfl Nat.zero_lt_one le_rfl))) le_rfl
    fun answer => ?_
  cases answer with
  | error exc =>
    exact seq uuid4 fun _ => seq (setStatuses ..) fun _ =>
      seq (within_capture (repo trivial)) fun _ => within_pure _ le_rfl
  | ok vectors => exact seq (buildRecords ..) fun _ => seq (repo trivial) fun _ => setStatuses ..

theorem supersede (community : String) (priorNote : Option Note) (priorChunk : Option EventChunk) :
    (services removable).Within n n (DomainService.supersede community priorNote priorChunk) := by
  have hnote : (services removable).Within n n (DomainService.supersede community priorNote none) := by
    cases priorNote with
    | none => exact within_pure _ le_rfl
    | some note => exact repo (by simp [RepoCall.Tame])
  cases priorChunk with
  | none => exact hnote
  | some chunk => exact seq (repo (by simp [RepoCall.Tame])) fun _ => hnote

theorem saveRevision (message : InboundMessage) (source : String) (now : DateTime)
    (parsed : ParsedNote) : (services removable).Within n n
      (DomainService.saveRevision message source now parsed) := by
  refine seq (repo trivial) fun note => ?_
  have hprior : (services removable).Within n n (priorChunkOf message.communityId note) := by
    cases note with
    | none => exact within_pure _ le_rfl
    | some note => exact repo trivial
  refine seq hprior fun chunk => seq uuid4 fun _ => seq (repo trivial) fun _ => ?_
  refine seq ?_ fun _ => seq (repo trivial) fun _ => seq (supersede ..) fun _ => within_pure _ le_rfl
  unfold newChunks
  split
  · exact within_pure _ le_rfl
  · exact seq uuid4 fun _ => within_pure _ le_rfl

theorem ingest (service : DomainService) (message : InboundMessage) :
    (services removable).Within 0 1 (service.ingest message) := by
  refine within_bind 0 now (Nat.zero_le _) fun now => ?_
  refine within_bind 0 uuid4 (Nat.zero_le _) fun id => ?_
  refine within_bind 0 (repo trivial) (Nat.zero_le _) fun r => ?_
  have hquiet : ∀ {p : Proc IngestResult}, (services removable).Within 0 0 p →
    (services removable).Within 0 1 p := fun h => h.mono le_rfl (Nat.zero_le _)
  obtain ⟨persisted, replayed⟩ := r
  cases replayed with
  | true => exact hquiet (reconstructResult persisted)
  | false =>
    unfold ingestFresh
    simp only [Bool.false_eq_true, if_false]
    split
    · exact hquiet (seq (tombstone ..) fun _ => within_pure _ le_rfl)
    · cases parseNote message.payload with
      | none => exact within_pure _ (Nat.zero_le _)
      | some parsed =>
        refine within_bind 0 (saveRevision ..) (Nat.zero_le _) fun chunks => ?_
        refine within_bind 1 ?_ le_rfl fun _ => within_pure _ le_rfl
        unfold embedNew
        split
        · exact embedChunks ..
        · exact within_pure _ (Nat.zero_le _)

theorem delete (chat target community : String) : (services removable).Within n n
    (deleteNoteForExternalMessage chat target community) := by
  refine seq (tombstone ..) fun note => ?_
  cases note with
  | none => exact within_pure _ le_rfl
  | some note => exact within_pure _ le_rfl

end Domain

section Retries

open ReconciliationService

/-- A group is embedded with one call of the provider. -/
theorem embedGroup (client : EmbeddingClient) (source community : String) (now : DateTime)
    (group : List EventChunk) : (services removable).Within 0 1
      (ReconciliationService.embedGroup client source community now group) :=
  within_bind 1 (within_attempt (provider rfl Nat.zero_lt_one le_rfl)) le_rfl fun _ =>
    seq (buildRecords ..) fun _ => seq (repo trivial) fun _ => setStatuses ..

theorem retryGroup (client : EmbeddingClient) (community : String) (now : DateTime)
    (source : String) (group : List EventChunk) : (services removable).Within 0 1
      (ReconciliationService.retryGroup client community now source group) := by
  refine within_bind 1 (within_capture (embedGroup ..)) le_rfl fun r => ?_
  cases r with
  | ok _ => exact within_pure _ le_rfl
  | error exc =>
    exact seq uuid4 fun _ => seq (within_capture (repo trivial)) fun _ => within_pure _ le_rfl

/-- A retry asks the provider once for each group, so its calls have no stages. -/
theorem retry (service : ReconciliationService) (community : String) (limit : Option Int) :
    (services removable).unstaged.Within 0 0 (service.retryFailedChunks community limit) := by
  have hgroups : ∀ (client : EmbeddingClient) (now : DateTime)
      (groups : List (String × List EventChunk)), (services removable).unstaged.Within 0 0
        (retryGroups client community now groups) := by
    intro client now groups
    induction groups with
    | nil => exact within_pure _ le_rfl
    | cons group groups ih =>
      exact within_bind 0 (retryGroup ..).unstaged le_rfl fun _ =>
        within_bind 0 ih le_rfl fun _ => within_pure _ le_rfl
  have hlist : (services removable).Within 0 0 (Proc.listFailedEventChunks community limit) :=
    repo trivial
  unfold retryFailedChunks
  split
  · exact within_throw _ le_rfl
  · exact within_bind 0 hlist.unstaged le_rfl fun _ =>
      within_bind 0 (now (n := 0)).unstaged le_rfl fun _ =>
        within_bind 0 (hgroups ..) le_rfl fun _ => within_pure _ le_rfl

end Retries

/-! ## Questions -/

theorem legHits (queryId : String) (leg : RetrievalLeg) (modelName : String) (createdAt : DateTime)
    (rank : Nat) (hits : List (EventChunk × ℚ)) : (services removable).Within n n
      (DiaryMemory.legHits queryId leg modelName createdAt rank hits) := by
  induction hits generalizing rank with
  | nil => exact within_pure _ le_rfl
  | cons hit hits ih => exact seq uuid4 fun _ => seq (ih (rank + 1)) fun _ => within_pure _ le_rfl

theorem saveQueryAndHits (query : Query) (modelName : String) (candidates : RetrievedCandidates) :
    (services removable).Within n n (QueryService.saveQueryAndHits query modelName candidates) := by
  refine seq (repo trivial) fun _ => seq ?_ fun hits => ?_
  · exact seq (legHits ..) fun _ => seq (legHits ..) fun _ => seq (legHits ..) fun _ =>
      within_pure _ le_rfl
  · split
    · exact within_pure _ le_rfl
    · exact repo trivial

theorem finalize (query : Query) (candidates : RetrievedCandidates) (context : AnswerContext)
    (graded : Graded) : (services removable).Within n n
      (QueryService.finalize query candidates context graded) :=
  seq (saveQueryAndHits ..) fun _ => seq uuid4 fun _ => seq now fun _ => seq (repo trivial) fun _ =>
    within_pure _ le_rfl

theorem complete (prompt : AnswerPrompt) (hlo : lo < 6) :
    (services removable).Within lo 6 (capture (Proc.complete prompt)) :=
  within_capture (within_attempt (provider rfl hlo le_rfl))

theorem retrieve (service : QueryService) (community text : String) (dateRange : Option DateRange)
    (subjectScope : Option String) : (services removable).Within 2 3
      (service.retrieve community text dateRange subjectScope) := by
  unfold QueryService.retrieve
  split
  · exact within_throw _ (by omega)
  · refine within_bind 3 (within_attempt (provider rfl (by omega) le_rfl)) le_rfl fun vectors => ?_
    cases vectors with
    | nil => exact within_throw _ le_rfl
    | cons => exact seq (repo trivial) fun _ => seq (repo trivial) fun _ => seq (ofExcept _) fun _ =>
        within_pure _ le_rfl

theorem answerNew (service : QueryService) (query : Query) (dateRange : Option DateRange)
    (subjectScope : Option String) :
    (services removable).Within 2 6 (service.answerNew query dateRange subjectScope) := by
  unfold QueryService.answerNew
  split
  · exact (finalize (n := 2) ..).mono le_rfl (by omega)
  · refine within_bind 3 (retrieve ..) (by omega) fun candidates => ?_
    split
    · exact (finalize (n := 3) ..).mono le_rfl (by omega)
    · exact within_bind 3 (ofExcept _) (by omega) fun _ =>
        within_bind 6 (complete _ (by omega)) le_rfl fun _ => seq (ofExcept _) fun _ => finalize ..

theorem answer (service : QueryService) (message : InboundMessage) (dateRange : Option DateRange)
    (subjectScope : Option String) :
    (services removable).Within 2 6 (service.answer message dateRange subjectScope) := by
  unfold QueryService.answer
  split
  · exact within_throw _ (by omega)
  · refine within_bind 2 now (by omega) fun createdAt => ?_
    refine within_bind 2 uuid4 (by omega) fun queryId => ?_
    dsimp only
    exact answerNew ..

/-! ## The routed chat -/

section Chat

open RoutedChatService

theorem rewrite (service : RoutedChatService) (question : String) :
    (services removable).Within 1 2 (service.rewrite question) := by
  unfold RoutedChatService.rewrite
  split
  · exact within_pure _ (by omega)
  · refine within_bind 1 now (by omega) fun now => ?_
    refine within_bind 2 (within_capture (within_attempt (provider rfl (by omega) le_rfl))) le_rfl
      fun r => ?_
    split
    · exact within_pure _ le_rfl
    · exact within_pure _ le_rfl
    · exact within_throw _ le_rfl
    · dsimp only
      split
      · exact within_pure _ le_rfl
      · exact within_pure _ le_rfl

theorem rewriteOutward (service : RoutedChatService) (question : String) (context : List String) :
    (services removable).Within 3 4 (service.rewriteOutward question context) := by
  unfold RoutedChatService.rewriteOutward
  split
  · exact within_pure _ (by omega)
  · refine within_bind 4 (within_capture (within_attempt (provider rfl (by omega) le_rfl))) le_rfl
      fun r => ?_
    split
    · exact within_pure _ le_rfl
    · exact within_pure _ le_rfl
    · exact within_throw _ le_rfl
    · exact within_pure _ le_rfl

theorem searchKnowledge (query : String) :
    (services removable).Within 4 5 (RoutedChatService.searchKnowledge query) := by
  refine within_bind 5 (within_capture (within_attempt (provider rfl (by omega) le_rfl))) le_rfl fun r => ?_
  split
  · exact within_pure _ le_rfl
  · exact within_pure _ le_rfl
  · exact within_throw _ le_rfl
  · exact within_pure _ le_rfl

theorem classify (question : String) :
    (services removable).Within 0 1 (RoutedChatService.classify question) := by
  unfold RoutedChatService.classify
  split
  · exact within_pure _ (by omega)
  · refine within_bind 1 (within_capture (within_attempt (provider rfl (by omega) le_rfl))) le_rfl
      fun r => ?_
    split
    · exact within_pure _ le_rfl
    · exact within_pure _ le_rfl
    · exact within_throw _ le_rfl
    · exact within_pure _ le_rfl

theorem finishMixed (service : RoutedChatService) (query : Query)
    (candidates : RetrievedCandidates) (context : AnswerContext) (promptVersion : String)
    (g : Generation) : (services removable).Within n n
      (service.finishMixed query candidates context promptVersion g) :=
  seq (saveQueryAndHits ..) fun _ => seq uuid4 fun _ => seq (repo trivial) fun _ =>
    within_pure _ le_rfl

theorem answerNotesPlusModel (service : RoutedChatService) (message : InboundMessage)
    (question : String) (subjectScope : Option String) : (services removable).Within 1 6
      (service.answerNotesPlusModel message question subjectScope) :=
  within_bind 1 now (by omega) fun _ => within_bind 1 uuid4 (by omega) fun _ =>
    within_bind 2 (rewrite ..) (by omega) fun _ => within_bind 3 (retrieve ..) (by omega) fun _ =>
      within_bind 3 (ofExcept _) (by omega) fun _ =>
        within_bind 6 (complete _ (by omega)) le_rfl fun _ => seq (ofExcept _) fun _ =>
          seq (finishMixed ..) fun _ => within_pure _ le_rfl

theorem answerNotesPlusKnowledge (service : RoutedChatService) (message : InboundMessage)
    (question : String) (subjectScope : Option String) : (services removable).Within 1 6
      (service.answerNotesPlusKnowledge message question subjectScope) := by
  unfold RoutedChatService.answerNotesPlusKnowledge
  split
  · exact within_throw _ (by omega)
  · refine within_bind 1 now (by omega) fun _ => within_bind 1 uuid4 (by omega) fun _ => ?_
    refine within_bind 2 (rewrite ..) (by omega) fun _ => ?_
    refine within_bind 3 (retrieve ..) (by omega) fun _ => ?_
    refine within_bind 4 (rewriteOutward ..) (by omega) fun _ => ?_
    refine within_bind 5 (searchKnowledge _) (by omega) fun _ => ?_
    refine within_bind 5 (ofExcept _) (by omega) fun _ => ?_
    exact within_bind 6 (complete _ (by omega)) le_rfl fun _ => seq (ofExcept _) fun _ =>
      seq (finishMixed ..) fun _ => within_pure _ le_rfl

theorem answerModelOnly (service : RoutedChatService) (message : InboundMessage)
    (question : String) :
    (services removable).Within 1 6 (service.answerModelOnly message question) :=
  within_bind 1 now (by omega) fun _ => within_bind 1 uuid4 (by omega) fun _ =>
    within_bind 6 (complete _ (by omega)) le_rfl fun _ => seq (ofExcept _) fun _ =>
      seq (repo trivial) fun _ => seq uuid4 fun _ => seq (repo trivial) fun _ => within_pure _ le_rfl

theorem orUnavailable (question : String) {p : Proc Routed}
    (hp : (services removable).Within 1 6 p) :
    (services removable).Within 1 6 (RoutedChatService.orUnavailable question p) := by
  refine within_bind 6 (within_capture hp) le_rfl fun r => ?_
  split
  · exact within_pure _ le_rfl
  · exact within_throw _ le_rfl
  · exact within_pure _ le_rfl

theorem answerBy (service : RoutedChatService) (message : InboundMessage) (question : String)
    (subjectScope : Option String) (route : ChatRoute) : (services removable).Within 1 6
      (service.answerBy message question subjectScope route) := by
  cases route with
  | modelOnly =>
    exact within_bind 6 (answerModelOnly ..) le_rfl fun _ => within_pure _ le_rfl
  | notesPlusModel =>
    exact orUnavailable _ (within_bind 6 (answerNotesPlusModel ..) le_rfl fun _ =>
      within_pure _ le_rfl)
  | notesPlusKnowledge =>
    exact orUnavailable _ (within_bind 6 (answerNotesPlusKnowledge ..) le_rfl fun _ =>
      within_pure _ le_rfl)
  | notesLookup =>
    exact orUnavailable _ (within_bind 6 ((answer ..).mono (by omega) le_rfl) le_rfl fun _ =>
      within_pure _ le_rfl)

theorem saveRewrite (decisionId community : String) (c : Option RewriteCapture) :
    (services removable).Within n n (RoutedChatService.saveRewrite decisionId community c) := by
  cases c with
  | none => exact within_pure _ le_rfl
  | some c => exact seq uuid4 fun _ => seq now fun _ => repo trivial

theorem saveKnowledge (service : RoutedChatService) (decisionId community : String)
    (c : Option KnowledgeCapture) :
    (services removable).Within n n (service.saveKnowledge decisionId community c) := by
  cases c with
  | none => exact within_pure _ le_rfl
  | some c => exact seq uuid4 fun _ => seq now fun _ => repo trivial

theorem chat (service : RoutedChatService) (message : InboundMessage)
    (subjectScope : Option String) :
    (services removable).Within 0 6 (service.chat message subjectScope) := by
  unfold RoutedChatService.chat
  dsimp only
  split
  · exact within_throw _ (by omega)
  · refine within_bind 1 (classify _) (by omega) fun _ => ?_
    refine within_bind 6 (answerBy ..) le_rfl fun _ => ?_
    exact seq uuid4 fun _ => seq now fun _ => seq (repo trivial) fun _ => seq (saveRewrite ..) fun _ =>
      seq (saveKnowledge ..) fun _ => within_pure _ le_rfl

end Chat

/-! ## Messages -/

section Dispatch

open Dispatcher

theorem exportRaw (community requester : String) (format : ExportFormat) :
    (services removable).Within n n (DiaryMemory.exportRaw community requester format) := by
  unfold DiaryMemory.exportRaw
  by_cases hcommunity : community = ""
  · rw [if_pos hcommunity]
    exact within_throw _ le_rfl
  · rw [if_neg hcommunity]
    exact seq now fun _ => seq (repo trivial) fun _ => within_pure _ le_rfl

theorem listRecentDrafts (community : String) (limit : Int) :
    (services removable).Within n n (DomainService.listRecentDrafts community limit) := by
  unfold DomainService.listRecentDrafts
  split
  · exact within_throw _ le_rfl
  · exact repo trivial

theorem dispatchAsk (dispatcher : Dispatcher) (message : InboundMessage) :
    (services removable).Within 0 6 (dispatcher.dispatchAsk message) := by
  refine within_bind 6 ?_ le_rfl fun _ => seq (within_ask (aside rfl)) fun _ => within_pure _ le_rfl
  refine within_bind 6 (within_capture ((answer ..).mono (by omega) le_rfl)) le_rfl fun r => ?_
  split
  · exact within_pure _ le_rfl
  · exact within_throw _ le_rfl
  · exact within_pure _ le_rfl

theorem dispatchChat (dispatcher : Dispatcher) (message : InboundMessage) :
    (services removable).Within 0 6 (dispatcher.dispatchChat message) := by
  unfold Dispatcher.dispatchChat
  split
  · exact within_pure _ (by omega)
  · exact within_bind 6 (chat ..) le_rfl fun _ => within_pure _ le_rfl

theorem dispatchSources (message : InboundMessage) :
    (services removable).Within n n (Dispatcher.dispatchSources message) := by
  refine seq (within_ask (aside rfl)) fun r => ?_
  split
  · exact within_pure _ le_rfl
  · exact within_pure _ le_rfl
  · exact within_pure _ le_rfl

theorem dispatchDrafts (dispatcher : Dispatcher) (message : InboundMessage) :
    (services removable).Within n n (dispatcher.dispatchDrafts message) := by
  unfold Dispatcher.dispatchDrafts
  split
  · exact within_pure _ le_rfl
  · refine seq (listRecentDrafts ..) fun drafts => ?_
    dsimp only
    split
    · exact within_pure _ le_rfl
    · exact within_pure _ le_rfl

theorem dispatchExport (message : InboundMessage) :
    (services removable).Within n n (Dispatcher.dispatchExport message) := by
  unfold Dispatcher.dispatchExport
  split
  · exact within_pure _ le_rfl
  · exact seq (exportRaw ..) fun _ => within_pure _ le_rfl

theorem dispatchDelete (message : InboundMessage) :
    (services removable).Within n n (Dispatcher.dispatchDelete message) := by
  unfold Dispatcher.dispatchDelete
  split
  · exact within_pure _ le_rfl
  · exact seq (delete ..) fun _ => within_pure _ le_rfl

theorem dispatch (dispatcher : Dispatcher) (message : InboundMessage) :
    (services removable).Within 0 6 (dispatcher.dispatch message) := by
  have hingest : ∀ {f : IngestResult → Proc DispatchResult} (message : InboundMessage),
      (∀ r, (services removable).Within 1 1 (f r)) →
      (services removable).Within 0 6 (dispatcher.domain.ingest message >>= f) := fun message hf =>
    (within_bind 1 (ingest ..) le_rfl hf).mono le_rfl (by omega)
  have hquiet : ∀ {p : Proc DispatchResult}, (services removable).Within 0 0 p →
    (services removable).Within 0 6 p := fun h => h.mono le_rfl (by omega)
  unfold Dispatcher.dispatch
  split
  · exact within_pure _ (by omega)
  · exact within_pure _ (by omega)
  · exact hingest _ fun _ => seq (ofExcept _) fun _ => within_pure _ le_rfl
  · exact hingest _ fun _ => within_pure _ le_rfl
  · exact dispatchAsk ..
  · exact dispatchChat ..
  · exact hquiet (dispatchSources _)
  · exact hquiet (dispatchDrafts ..)
  · exact hquiet (dispatchExport _)
  · exact hquiet (dispatchDelete _)
  · exact within_pure _ (by omega)
  · exact within_pure _ (by omega)

end Dispatch

end Within

/-! ## Providers -/

section Providers

variable {B : Backend} {env : Env}

/-- The provider call of a call. -/
def Call.asked : Call → Option SystemCall
  | .sys c => if c.isProvider then some c else none
  | .repo _ => none

theorem World.asked_serve (c : Call) (w : World B.State) :
    (serve B env c w).2.asked = w.asked ++ c.asked.toList := by
  have hlog : ∃ before raised, (serve B env c w).2.log = w.log ++ [⟨before, c, raised⟩] := by
    cases c with
    | sys c => cases c <;> exact ⟨_, _, rfl⟩
    | repo c =>
      simp only [serve, respond, serveRepo]
      cases env.storeFails w.tick c <;> exact ⟨_, _, rfl⟩
  obtain ⟨before, raised, hlog⟩ := hlog
  unfold World.asked
  rw [hlog, List.filterMap_append]
  cases c with
  | repo c => rfl
  | sys c => cases c <;> rfl

/-- The providers asked by a program are those of its calls. -/
theorem World.asked_run {α : Type} (q : Prog Call Reply α) (w : World B.State) :
    (q.run (serve B env) w).2.asked = w.asked ++ (q.trace (serve B env) w).filterMap Call.asked := by
  induction q generalizing w with
  | ret a => exact (List.append_nil _).symm
  | call c k ih =>
    refine (ih _ _).trans ?_
    rw [World.asked_serve, List.append_assoc, Prog.trace, List.filterMap_cons]
    cases c.asked <;> rfl

theorem SystemCall.isProvider_iff (c : SystemCall) : c.isProvider = c.stage.isSome := by
  cases c <;> rfl

/-- Each provider is asked at its stage. -/
theorem Call.stage_asked (removable : String → Prop) (c : Call) :
    (services removable).stage c = c.asked.bind SystemCall.stage := by
  cases c with
  | repo c => rfl
  | sys c => cases c <;> rfl

/-- A message asks its providers in the order of their stages, each at most once : the embedder
of notes or the classifier, the rewriter, the embedder of questions, the outward rewriter, the
search, the chat model. -/
theorem asked_in_order (B : Backend) (env : Env) (w : World B.State) (dispatcher : Dispatcher)
    (message : InboundMessage) :
    ∃ cs, ((dispatcher.dispatch message).exec B env w).2.asked = w.asked ++ cs ∧
      (∀ c ∈ cs, c.stage.isSome) ∧ (cs.filterMap SystemCall.stage).Pairwise (· < ·) := by
  have hwithin := @Within.dispatch (fun _ => False) dispatcher message
  refine ⟨_, World.asked_run _ w, fun c hc => ?_, ?_⟩
  · obtain ⟨call, -, hasked⟩ := List.mem_filterMap.mp hc
    cases call with
    | repo c => cases hasked
    | sys d =>
      obtain ⟨hprovider, rfl⟩ := Option.ite_some_none_eq_some.mp hasked
      rwa [← SystemCall.isProvider_iff]
  · have hstages := Conduct.pairwise_trace (h := serve B env) (s := w) _ hwithin.keeps
    rw [funext (Call.stage_asked _)] at hstages
    rw [List.filterMap_filterMap]
    exact (List.pairwise_cons.mp hstages).2

end Providers

end DiaryMemory
