import DiaryMemory.DomainService
import DiaryMemory.Pact
import DiaryMemory.Reconciliation
import DiaryMemory.RoutedChat

/-!
# What the services ask

A pact that allows the lookups, the flips, the optional providers and what else does not carry the
rows of a message or the text of an answer (`Pact.Routine`) is kept by an ingest if it allows the
source row and the chunk of the message and the records of its embedding (`Pact.Ingests`), by
every removal (`ensures_delete`), and by a retry if it allows its list and its records
(`ensures_retry`). A chat keeps it if the answer of its route does (`ensures_chat`).
-/

namespace DiaryMemory

/-- A call that brings no row of a message, no vector, and no text of an answer. -/
def Call.Routine : Call → Prop
  | .sys .uuid4 | .sys .now | .sys (.embed _) => True
  | .sys (.classify _) | .sys (.rewrite ..) | .sys (.rewriteOutward ..) | .sys (.search _) => True
  | .repo (.saveQuery _) | .repo (.saveRetrievalHits _) | .repo (.saveChatRouteDecision _) => True
  | .repo (.saveChatQueryRewrite _) | .repo (.saveChatKnowledgeSearch _) => True
  | .repo (.saveNote _) | .repo (.getNoteBySourceMessageId _) => True
  | .repo (.getActiveNoteForExternalMessage ..) | .repo (.countEventChunksForSource _) => True
  | .repo (.getActiveChunkForNote ..) | .repo (.setChunkEmbeddingStatus ..) => True
  | .repo (.markNote ..) | .repo (.markChunk ..) | .repo (.saveIndexingDeadLetter _) => True
  | _ => False

namespace Pact

variable {P : Pact Call Reply} {α : Type}

/-- Routine calls are allowed. -/
def Routine (P : Pact Call Reply) : Prop := ∀ c : Call, c.Routine → P.asks c

/-- Records that a client makes of the vectors it is given may be stored. -/
def Stores (P : Pact Call Reply) (client : EmbeddingClient) : Prop :=
  ∀ chunks vectors, P.gives (.sys (.embed chunks)) (.ok vectors) → ∀ records : List EmbeddingRecord,
    (∀ r ∈ records, r.dimension = client.dimension ∧ r.embedding ∈ vectors) →
    P.asks (.repo (.saveEmbeddingRecords records))

open DomainService in
/-- What an ingest of the message asks is allowed. -/
structure Ingests (P : Pact Call Reply) (service : DomainService) (message : InboundMessage) :
    Prop where
  routine : P.Routine
  source : ∀ id now, P.asks (.repo (.getOrCreateSourceMessage (sourceRow message id now)))
  chunks : ∀ source now parsed, parseNote message.payload = some parsed → ∀ chunks : List EventChunk,
    (∀ c ∈ chunks, ∃ noteId priorNote chunkId priorChunk,
      c = newChunk (newNote message source now parsed noteId priorNote) chunkId priorChunk) →
    P.asks (.repo (.saveEventChunks chunks))
  records : ∀ client ∈ service.embeddingClient, P.Stores client

/-! ## Calls -/

theorem ensures_repo {c : RepoCall} (h : P.asks (.repo c)) :
    P.Ensures (Proc.repo c) fun _ => True :=
  ensures_attempt ⟨h, fun _ _ _ _ _ => trivial⟩

theorem ensures_sys {c : SystemCall} (h : P.asks (.sys c)) :
    P.Ensures (ask (Proc.sys c) : Proc (SystemReply c)) fun _ => True :=
  ensures_ask ⟨h, fun _ _ _ => trivial⟩

/-- A part that makes no call. -/
theorem ensures_done (a : α) : P.Ensures (pure a : Proc α) fun _ => True := ensures_pure trivial

theorem ensures_ofExcept (r : Except Exn α) : P.Ensures (Proc.ofExcept r) fun a => r = .ok a := by
  cases r with
  | error e => exact ensures_throw e
  | ok a => exact ensures_pure rfl

/-- What a part raises is looked at. -/
theorem ensures_caught {p : Proc α} (h : P.Ensures p fun _ => True) :
    P.Ensures (capture p) fun _ => True :=
  (ensures_capture h).imp fun _ _ => trivial

theorem Routine.repo (hP : P.Routine) (c : RepoCall) (hc : (Call.repo c).Routine) :
    P.Ensures (Proc.repo c) fun _ => True :=
  ensures_repo (hP _ hc)

theorem Routine.uuid4 (hP : P.Routine) : P.Ensures Proc.uuid4 fun _ => True :=
  ensures_sys (hP (.sys .uuid4) trivial)

theorem Routine.now (hP : P.Routine) : P.Ensures Proc.now fun _ => True :=
  ensures_sys (hP (.sys .now) trivial)

/-- The vectors of a call are those the pact gives. -/
theorem Routine.embed (hP : P.Routine) (chunks : List EventChunk) : P.Ensures (Proc.embed chunks)
    fun vectors => P.gives (.sys (.embed chunks)) (.ok vectors) := by
  refine ensures_attempt ⟨hP (.sys (.embed chunks)) trivial, fun r _ hr => ?_⟩
  rintro vectors rfl
  exact hr

/-! ## Embeddings -/

theorem ensures_buildRecords (hP : P.Routine) (client : EmbeddingClient) (source community : String)
    (now : DateTime) (chunks : List EventChunk) (vectors : List Vec) :
    P.Ensures (buildRecords client source community now chunks vectors) fun records =>
      ∀ r ∈ records, r.dimension = client.dimension ∧ r.embedding ∈ vectors := by
  induction chunks generalizing vectors with
  | nil =>
    cases vectors with
    | nil => exact ensures_pure nofun
    | cons => exact ensures_throw _
  | cons chunk chunks ih =>
    cases vectors with
    | nil => exact ensures_throw _
    | cons vector vectors =>
      refine ensures_seq hP.uuid4 fun id => ensures_bind _ (ih vectors) fun records hrecords =>
        ensures_pure (List.forall_mem_cons.mpr ⟨⟨rfl, List.mem_cons_self⟩, fun r hr => ?_⟩)
      obtain ⟨hdimension, hmem⟩ := hrecords r hr
      exact ⟨hdimension, List.mem_cons_of_mem _ hmem⟩

theorem ensures_setStatuses (hP : P.Routine) (status : EmbeddingStatus) (chunks : List EventChunk) :
    P.Ensures (setStatuses status chunks) fun _ => True := by
  induction chunks with
  | nil => exact ensures_done _
  | cons chunk chunks ih => exact ensures_seq (hP.repo _ trivial) fun _ => ih

/-- The vectors of a call are stored. -/
theorem ensures_stored (hP : P.Routine) {client : EmbeddingClient} (hclient : P.Stores client)
    (source community : String) (now : DateTime) {chunks : List EventChunk} {vectors : List Vec}
    (hvectors : P.gives (.sys (.embed chunks)) (.ok vectors)) :
    P.Ensures (do
      let records ← buildRecords client source community now chunks vectors
      Proc.saveEmbeddingRecords records
      setStatuses .ready chunks) fun _ => True :=
  ensures_bind _ (ensures_buildRecords hP ..) fun records hrecords =>
    ensures_seq (ensures_repo (hclient _ _ hvectors records hrecords)) fun _ =>
      ensures_setStatuses hP ..

/-! ## Ingests -/

section Domain

open DomainService

theorem ensures_reconstructResult (hP : P.Routine) (source : SourceMessage) :
    P.Ensures (reconstructResult source) fun _ => True := by
  unfold reconstructResult
  split
  · exact ensures_done _
  · refine ensures_seq (hP.repo _ trivial) fun note => ?_
    cases note with
    | none => exact ensures_done _
    | some note => exact ensures_seq (hP.repo _ trivial) fun _ => ensures_done _

theorem ensures_tombstone (hP : P.Routine) (chat msg community : String) :
    P.Ensures (tombstoneActiveNoteForExternalMessage chat msg community) fun _ => True := by
  refine ensures_seq (hP.repo _ trivial) fun note => ?_
  cases note with
  | none => exact ensures_done _
  | some note =>
    refine ensures_seq (hP.repo _ trivial) fun chunk => ?_
    have hnote : P.Ensures (do Proc.markNoteTombstoned note.noteId community; pure (some note))
        fun _ => True := ensures_seq (hP.repo _ trivial) fun _ => ensures_done _
    cases chunk with
    | none => exact hnote
    | some chunk => exact ensures_seq (hP.repo _ trivial) fun _ => hnote

theorem ensures_supersede (hP : P.Routine) (community : String) (priorNote : Option Note)
    (priorChunk : Option EventChunk) :
    P.Ensures (supersede community priorNote priorChunk) fun _ => True := by
  have hnote : P.Ensures (supersede community priorNote none) fun _ => True := by
    cases priorNote with
    | none => exact ensures_done _
    | some note => exact hP.repo _ trivial
  cases priorChunk with
  | none => exact hnote
  | some chunk => exact ensures_seq (hP.repo _ trivial) fun _ => hnote

variable {service : DomainService} {message : InboundMessage}

/-- The chunk of a new note is allowed. -/
theorem Ingests.saveRevision (hP : P.Ingests service message) (source : String) (now : DateTime)
    {parsed : ParsedNote} (hparsed : parseNote message.payload = some parsed) :
    P.Ensures (DomainService.saveRevision message source now parsed) fun _ => True := by
  refine ensures_seq (hP.routine.repo _ trivial) fun priorNote => ?_
  have hprior : P.Ensures (priorChunkOf message.communityId priorNote) fun _ => True := by
    cases priorNote with
    | none => exact ensures_done _
    | some note => exact hP.routine.repo _ trivial
  refine ensures_seq hprior fun priorChunk => ensures_seq hP.routine.uuid4 fun noteId =>
    ensures_seq (hP.routine.repo _ trivial) fun _ => ?_
  refine ensures_bind (fun chunks : List EventChunk => ∀ c ∈ chunks, ∃ noteId priorNote chunkId
      priorChunk, c = newChunk (newNote message source now parsed noteId priorNote) chunkId
        priorChunk) ?_ fun chunks hchunks =>
    ensures_seq (ensures_repo (hP.chunks source now parsed hparsed chunks hchunks)) fun _ =>
      ensures_seq (ensures_supersede hP.routine ..) fun _ => ensures_done _
  unfold newChunks
  split
  · exact ensures_pure nofun
  · exact ensures_seq hP.routine.uuid4 fun chunkId =>
      ensures_pure (List.forall_mem_singleton.mpr ⟨noteId, priorNote, chunkId, priorChunk, rfl⟩)

theorem Ingests.embedNew (hP : P.Ingests service message) (source community : String)
    (now : DateTime) (chunks : List EventChunk) :
    P.Ensures (service.embedNew source community now chunks) fun _ => True := by
  unfold DomainService.embedNew
  split
  · next client chunk rest hclient =>
    refine ensures_bind _ (ensures_capture (hP.routine.embed (chunk :: rest))) fun answer hanswer => ?_
    cases answer with
    | error exc =>
      exact ensures_seq hP.routine.uuid4 fun _ =>
        ensures_seq (ensures_setStatuses hP.routine ..) fun _ =>
          ensures_seq (ensures_caught (hP.routine.repo _ trivial)) fun _ => ensures_done _
    | ok vectors =>
      exact ensures_stored hP.routine (hP.records client hclient) source community now
        (hanswer vectors rfl)
  · exact ensures_done _

theorem Ingests.ingest (hP : P.Ingests service message) :
    P.Ensures (service.ingest message) fun _ => True := by
  refine ensures_seq hP.routine.now fun now => ensures_seq hP.routine.uuid4 fun id =>
    ensures_seq (ensures_repo (hP.source id now)) fun r => ?_
  obtain ⟨persisted, replayed⟩ := r
  cases replayed with
  | true => exact ensures_reconstructResult hP.routine persisted
  | false =>
    unfold ingestFresh
    simp only [Bool.false_eq_true, if_false]
    split
    · exact ensures_seq (ensures_tombstone hP.routine ..) fun _ => ensures_done _
    · cases hparsed : parseNote message.payload with
      | none => exact ensures_done _
      | some parsed =>
        exact ensures_seq (hP.saveRevision _ now hparsed) fun _ =>
          ensures_seq (hP.embedNew ..) fun _ => ensures_done _

/-! ## Removals -/

theorem ensures_delete (hP : P.Routine) (chat target community : String) :
    P.Ensures (deleteNoteForExternalMessage chat target community) fun _ => True := by
  refine ensures_seq (ensures_tombstone hP ..) fun note => ?_
  cases note with
  | none => exact ensures_done _
  | some note => exact ensures_done _

end Domain

/-! ## Retries -/

section Retries

open ReconciliationService

variable {client : EmbeddingClient}

theorem ensures_retryGroups (hP : P.Routine) (hclient : P.Stores client) (community : String)
    (now : DateTime) (groups : List (String × List EventChunk)) :
    P.Ensures (retryGroups client community now groups) fun _ => True := by
  induction groups with
  | nil => exact ensures_done _
  | cons group groups ih =>
    obtain ⟨source, chunks⟩ := group
    refine ensures_seq ?_ fun _ => ensures_seq ih fun _ => ensures_done _
    have hgroup : P.Ensures (embedGroup client source community now chunks) fun _ => True :=
      ensures_bind _ (hP.embed chunks) fun _ hvectors =>
        ensures_stored hP hclient source community now hvectors
    refine ensures_seq (ensures_caught hgroup) fun answer => ?_
    cases answer with
    | ok => exact ensures_done _
    | error exc =>
      exact ensures_seq hP.uuid4 fun _ => ensures_seq (ensures_caught (hP.repo _ trivial)) fun _ =>
        ensures_done _

theorem ensures_retry (hP : P.Routine) {service : ReconciliationService} {community : String}
    {limit : Option Int} (hlist : P.asks (.repo (.listFailedEventChunks community limit)))
    (hclient : ∀ client ∈ service.embeddingClient, P.Stores client) :
    P.Ensures (service.retryFailedChunks community limit) fun _ => True := by
  unfold retryFailedChunks
  cases hservice : service.embeddingClient with
  | none => exact ensures_throw _
  | some client =>
    exact ensures_seq (ensures_repo hlist) fun chunks => ensures_seq hP.now fun now =>
      ensures_seq (ensures_retryGroups hP (hclient client hservice) ..) fun _ => ensures_done _

end Retries

/-! ## Questions -/

theorem ensures_legHits (hP : P.Routine) (queryId : String) (leg : RetrievalLeg) (modelName : String)
    (createdAt : DateTime) (rank : Nat) (hits : List (EventChunk × ℚ)) :
    P.Ensures (legHits queryId leg modelName createdAt rank hits) fun _ => True := by
  induction hits generalizing rank with
  | nil => exact ensures_done _
  | cons hit hits ih =>
    exact ensures_seq hP.uuid4 fun _ => ensures_seq (ih (rank + 1)) fun _ => ensures_done _

theorem ensures_saveQueryAndHits (hP : P.Routine) (query : Query) (modelName : String)
    (candidates : RetrievedCandidates) :
    P.Ensures (QueryService.saveQueryAndHits query modelName candidates) fun _ => True := by
  refine ensures_seq (hP.repo _ trivial) fun _ => ensures_seq ?_ fun hits => ?_
  · exact ensures_seq (ensures_legHits hP ..) fun _ => ensures_seq (ensures_legHits hP ..) fun _ =>
      ensures_seq (ensures_legHits hP ..) fun _ => ensures_done _
  · split
    · exact ensures_done _
    · exact hP.repo _ trivial

/-! ## Chats -/

section Chats

open RoutedChatService

variable {service : RoutedChatService}

/-- An optional provider is asked. -/
theorem ensures_provider {p : Prog Call Reply (Except Exn α)}
    (hp : p.wp P.contract (fun _ _ => True) ()) : P.Ensures (capture (attempt p)) fun _ => True :=
  ensures_caught (ensures_attempt (Prog.wp_mono p (fun _ _ _ _ _ => trivial) hp))

theorem ensures_rewrite (hP : P.Routine) (question : String) :
    P.Ensures (service.rewrite question) fun _ => True := by
  unfold rewrite
  split
  · exact ensures_done _
  refine ensures_seq hP.now fun now =>
    ensures_seq (ensures_provider ⟨hP (.sys (.rewrite ..)) trivial, fun _ _ _ => trivial⟩) fun r => ?_
  split
  · exact ensures_done _
  · exact ensures_done _
  · exact ensures_throw _
  · dsimp only
    split
    · exact ensures_done _
    · exact ensures_done _

theorem ensures_rewriteOutward (hP : P.Routine) (question : String) (context : List String) :
    P.Ensures (service.rewriteOutward question context) fun _ => True := by
  unfold rewriteOutward
  split
  · exact ensures_done _
  refine ensures_seq (ensures_provider ⟨hP (.sys (.rewriteOutward ..)) trivial, fun _ _ _ => trivial⟩)
    fun r => ?_
  split
  · exact ensures_done _
  · exact ensures_done _
  · exact ensures_throw _
  · exact ensures_done _

/-- The excerpts are those of a search, or none. -/
theorem ensures_found {query : String} (hask : P.asks (.sys (.search query))) :
    P.Ensures (searchKnowledge query) fun found =>
      found.excerpts = [] ∨ P.gives (.sys (.search query)) (.ok found) := by
  refine ensures_bind (fun r => P.gives (.sys (.search query)) r)
    ⟨(wp_capture _ _ ()).mpr ⟨hask, fun r _ hr a ha => ?_⟩⟩ fun r hr => ?_
  · rwa [← Except.ok.inj ha]
  · split
    · exact ensures_pure (.inl rfl)
    · exact ensures_pure (.inl rfl)
    · exact ensures_throw _
    · exact ensures_pure (.inr hr)

theorem ensures_searchKnowledge (hP : P.Routine) (query : String) :
    P.Ensures (searchKnowledge query) fun _ => True :=
  (ensures_found (hP (.sys (.search query)) trivial)).imp fun _ _ => trivial

/-- The chat provider is asked, and may raise. -/
theorem ensures_completed {prompt : AnswerPrompt} (hask : P.asks (.sys (.complete prompt))) :
    P.Ensures (capture (Proc.complete prompt)) fun r => P.gives (.sys (.complete prompt)) r := by
  refine ⟨(wp_capture _ _ ()).mpr ⟨hask, fun r _ hr a ha => ?_⟩⟩
  rwa [← Except.ok.inj ha]

/-- The requested route is the verdict of the classifier, on a question that is asked. -/
def Verdict (P : Pact Call Reply) (question : String) (requested : Option ChatRoute) : Prop :=
  question = "" ∨ (∃ v, P.gives (.sys (.classify question)) (.ok v) ∧ requested = some v.route) ∨
    ∃ e, P.gives (.sys (.classify question)) (.error e)

theorem ensures_classify (hP : P.Routine) (question : String) :
    P.Ensures (classify question) fun c => P.Verdict question c.requested := by
  unfold classify
  split
  · next h => exact ensures_pure (.inl h)
  refine ensures_bind (fun r => P.gives (.sys (.classify question)) r)
    ⟨(wp_capture _ _ ()).mpr ⟨hP (.sys (.classify question)) trivial, fun r _ hr a ha => ?_⟩⟩
    fun r hr => ?_
  · rwa [← Except.ok.inj ha]
  · split
    · exact ensures_pure (.inr (.inr ⟨_, hr⟩))
    · exact ensures_pure (.inr (.inr ⟨_, hr⟩))
    · exact ensures_throw _
    · exact ensures_pure (.inr (.inl ⟨_, hr, rfl⟩))

/-- A chat ends in the answer of the route of its verdict. -/
theorem ensures_chat (hP : P.Routine) {message : InboundMessage} {subjectScope : Option String}
    {Q : ChatRoute → Routed → Prop} (hanswer : message.communityId ≠ "" → ∀ route,
      P.Ensures (service.answerBy message (PyText.strip message.payload) subjectScope route) (Q route)) :
    P.Ensures (service.chat message subjectScope) fun res =>
      P.Verdict (PyText.strip message.payload) res.requestedRoute ∧
        res.effectiveRoute = service.effectiveRoute res.requestedRoute ∧
        ∃ routed, Q res.effectiveRoute routed ∧ res.answer = routed.answer := by
  have hrewrite : ∀ decisionId community c,
      P.Ensures (saveRewrite decisionId community c) fun _ => True := by
    intro decisionId community c
    cases c with
    | none => exact ensures_done _
    | some c =>
      exact ensures_seq hP.uuid4 fun _ => ensures_seq hP.now fun _ => hP.repo _ trivial
  have hknowledge : ∀ decisionId community c,
      P.Ensures (service.saveKnowledge decisionId community c) fun _ => True := by
    intro decisionId community c
    cases c with
    | none => exact ensures_done _
    | some c =>
      exact ensures_seq hP.uuid4 fun _ => ensures_seq hP.now fun _ => hP.repo _ trivial
  unfold chat
  dsimp only
  split
  · exact ensures_throw _
  · next hcommunity =>
    refine ensures_bind _ (ensures_classify hP _) fun classified hverdict =>
      ensures_bind _ (hanswer hcommunity _) fun routed hrouted => ?_
    exact ensures_seq hP.uuid4 fun _ => ensures_seq hP.now fun _ =>
      ensures_seq (hP.repo _ trivial) fun _ => ensures_seq (hrewrite ..) fun _ =>
        ensures_seq (hknowledge ..) fun _ => ensures_pure ⟨hverdict, rfl, routed, hrouted, rfl⟩

/-- A route whose search is not there answers too. -/
theorem ensures_orUnavailable (question : String) {p : Proc Routed} {Q : Routed → Prop}
    (hp : P.Ensures p Q) (hnone : Q (retrievalUnavailable question)) :
    P.Ensures (orUnavailable question p) Q := by
  refine ensures_bind _ (ensures_capture hp) fun r hr => ?_
  split
  · exact ensures_pure hnone
  · exact ensures_throw _
  · exact ensures_pure (hr _ rfl)

end Chats

end Pact

/-! ## Runs -/

/-- What a procedure ensures under a pact holds of its runs. -/
theorem Pact.Ensures.exec {P : Pact Call Reply} {α : Type} {B : Backend} {env : Env} {p : Proc α}
    {Q : α → Prop} {I : World B.State → Prop} (hP : P.Honours (serve B env) I)
    (h : P.Ensures p Q) {w : World B.State} (hw : I w) {a : α}
    (ha : (p.exec B env w).1 = .ok a) : Q a := by
  have hmeets : P.contract.Meets (serve B env) (fun _ => ()) I := fun c w hI hc => by
    obtain ⟨hgives, hnext⟩ := hP c w hI hc
    exact ⟨hnext, hgives⟩
  exact (Prog.run_of_wp hmeets p.run hw h.keeps).2 a ha

end DiaryMemory
