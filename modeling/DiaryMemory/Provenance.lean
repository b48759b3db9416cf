import DiaryMemory.Grading
import Mathlib.Data.List.Infix

/-!
# The trace rows of a question

A question that returns leaves exactly one query, one answer trace of it and its hits, all new and
all with the grade of the result (`QuestionAdded`). In each leg the hits have the ranks from 1 on,
and the trace names the fused chunks in their order.

A chat that returns leaves these rows, those of the chunks its answer shows, and exactly one routing
decision that names the query, one rewrite exactly on the mixed routes and one search exactly on the
route with knowledge (`ChatAdded`), unless the search seam raised : `Env.Declared` says that the
providers raise what they declare, and that no other repository call raises `NotImplementedError`.
-/

namespace DiaryMemory

variable {kind : StoreKind} {engine : SearchEngine} {env : Env}
  {w w' : World (kind.backend engine).State} {community : String}

/-! ## Hits -/

/-- The chunks of a leg, in their order. -/
def RetrievedCandidates.leg (found : RetrievedCandidates) : RetrievalLeg → List String
  | .dense => found.dense.map EventChunk.chunkId
  | .sparse => found.sparse.map EventChunk.chunkId
  | .merged => found.merged.map FusedHit.chunkId

theorem filter_places (leg leg' : RetrievalLeg) (n : Nat) :
    ((places leg n).filter fun x => x.1 = leg').map Prod.snd =
      if leg = leg' then List.range' 1 n else [] := by
  rw [places, List.filter_map, List.map_map]
  by_cases h : leg = leg'
  · subst h
    simp [Function.comp_def]
  · simp [Function.comp_def, h]

theorem filter_leg {α : Type} (f : α → String) (queryId : String) (leg leg' : RetrievalLeg)
    (xs : List α) : ((xs.map fun x => (queryId, f x, leg)).filter fun x => x.2.2 = leg').map
      (fun x => x.2.1) = if leg = leg' then xs.map f else [] := by
  rw [List.filter_map, List.map_map]
  by_cases h : leg = leg'
  · subst h
    simp [Function.comp_def]
  · simp [Function.comp_def, h]

section Hits

variable {queryId : String} {found : RetrievedCandidates} {hits : List RetrievalHit} {lo hi : Nat}

/-- The chunks of the hits of a leg. -/
theorem HitsOf.chunks (h : HitsOf env lo hi queryId found hits) (leg : RetrievalLeg) :
    (hits.filter fun x => x.leg = leg).map RetrievalHit.chunkId = found.leg leg := by
  have hseen : (hits.filter fun x => x.leg = leg).map RetrievalHit.chunkId =
      ((hits.map RetrievalHit.seen).filter fun x => x.2.2 = leg).map fun x => x.2.1 := by
    rw [List.filter_map, List.map_map]
    rfl
  rw [hseen, h.seen, List.filter_append, List.filter_append, List.map_append, List.map_append,
    filter_leg EventChunk.chunkId, filter_leg EventChunk.chunkId,
    filter_leg fun x : FusedHit => x.chunk.chunkId]
  cases leg with
  | dense => exact List.append_nil _
  | sparse => exact List.append_nil _
  | merged => rfl

/-- The ranks of the hits of a leg, from 1 on. -/
theorem HitsOf.ranks (h : HitsOf env lo hi queryId found hits) (leg : RetrievalLeg) :
    (hits.filter fun x => x.leg = leg).map RetrievalHit.rank =
      List.range' 1 (found.leg leg).length := by
  have hplace : (hits.filter fun x => x.leg = leg).map RetrievalHit.rank =
      ((hits.map RetrievalHit.place).filter fun x => x.1 = leg).map Prod.snd := by
    rw [List.filter_map, List.map_map]
    rfl
  rw [hplace, h.place, List.filter_append, List.filter_append, List.map_append, List.map_append,
    filter_places, filter_places, filter_places]
  cases leg with
  | dense => simp [RetrievedCandidates.leg]
  | sparse => simp [RetrievedCandidates.leg]
  | merged => simp [RetrievedCandidates.leg]

end Hits

/-! ## Questions -/

/-- From `T` to `T'`, the rows of one question with this grade were added. -/
structure QuestionAdded (T T' : Tables) (community : String) (fallback : FallbackMode)
    (found : RetrievedCandidates) (q : Query) (t : AnswerTrace) (hits : List RetrievalHit) :
    Prop where
  queries : T'.queries.rows = T.queries.rows ++ [q]
  traces : T'.answerTraces.rows = T.answerTraces.rows ++ [t]
  hitRows : T'.retrievalHits.rows = T.retrievalHits.rows ++ hits
  ofCommunity : q.communityId = community
  newQuery : ∀ x ∈ T.queries, x.queryId ≠ q.queryId
  ofQuery : t.queryId = q.queryId ∧ ∀ x ∈ T'.answerTraces, x.queryId = q.queryId → x = t
  fallbacks : q.fallback = fallback ∧ t.fallbackMode = fallback
  context : t.contextChunkIds = found.leg .merged
  fused : ∃ topK, reciprocalRankFusion [found.dense, found.sparse] topK = .ok found.merged
  hitsOfQuery : ∀ h ∈ hits, h.queryId = q.queryId
  hitChunks : ∀ leg, (hits.filter fun h => h.leg = leg).map RetrievalHit.chunkId = found.leg leg
  hitRanks : ∀ leg, (hits.filter fun h => h.leg = leg).map RetrievalHit.rank =
    List.range' 1 (found.leg leg).length
  nodup : (hits.map RetrievalHit.seen).Nodup

/-- The rows of a traced question are exactly added. -/
theorem Traced.added {queryId : String} {fallback : FallbackMode} {found : RetrievedCandidates}
    {T T' : Tables} (hT : T.Linked) (hc : Candidates T community found)
    (h : Traced env community queryId fallback found T T') :
    ∃ q t hits, q.queryId = queryId ∧ QuestionAdded T T' community fallback found q t hits := by
  obtain ⟨q, hits, t, lo, hi, hq, rfl⟩ := h.rows
  have hnew : ∀ x ∈ T.queries, x.queryId ≠ q.queryId := hq.query.1 ▸ h.fresh
  have hfresh : ∀ x ∈ hits, ∀ y ∈ T.retrievalHits, y.retrievalHitId ≠ x.retrievalHitId := by
    intro x hx y hy
    obtain ⟨j, hj, -, hid⟩ := hq.ofHits.ids.drawn _ (List.mem_map_of_mem hx)
    rw [hid]
    exact (hq.minted.hit y hy).ne env.uuid_injective hj
  have hquery : t.queryId = q.queryId := hq.trace.1.trans hq.query.1.symm
  have holder : ∀ x ∈ T.answerTraces, x.queryId ≠ q.queryId := by
    intro x hx he
    obtain ⟨y, hy, hid⟩ := hT.trace_query x hx
    exact hnew y hy (hid.trans he)
  have htraces : (T.answerTraces.put t).rows = T.answerTraces.rows ++ [t] :=
    Table.rows_put_of_fresh (hquery ▸ holder)
  refine ⟨q, t, hits, hq.query.1, Table.rows_put_of_fresh hnew, htraces,
    Table.rows_putAll_of_fresh hq.ofHits.ids.nodup hfresh, hq.query.2.1, hnew,
    ⟨hquery, fun x hx he => ?_⟩, ⟨hq.query.2.2, hq.trace.2.1⟩,
    hq.trace.2.2, hc.fused, fun x hx => (hq.ofHits.mem hc x hx).1.trans hq.query.1.symm,
    hq.ofHits.chunks, hq.ofHits.ranks, hq.ofHits.nodup_seen hc⟩
  have hx' : x ∈ T.answerTraces.rows ++ [t] := htraces ▸ hx
  rcases List.mem_append.mp hx' with hold | hlast
  · exact absurd he (holder x hold)
  · exact List.mem_singleton.mp hlast

/-! ## Chats -/

/-- The providers raise what they declare, and the repository raises `NotImplementedError` from
its search seam only. -/
structure Env.Declared (env : Env) : Prop where
  embed : ∀ n texts message, env.embed n texts ≠ .error (.notImplementedError message)
  complete : ∀ n prompt e, env.complete n prompt = .error e →
    ∃ message, e = .chatProviderUnavailable message
  optional : ∀ e, ¬ env.Undeclared e
  repository : ∀ n c message, env.storeFails n c = some (.notImplementedError message) →
    c.isSearch = true

/-- A mixed route answers from the notes and from elsewhere. -/
def ChatRoute.isMixed : ChatRoute → Bool
  | .notesPlusModel | .notesPlusKnowledge => true
  | _ => false

/-- From `T` to `T'`, the rows of one chat were added : those of its question and of what it found,
which its answer shows and which is nothing where nothing is retrieved, one decision, and the
rewrite and the search of its route. -/
structure ChatAdded (T T' : Tables) (community : String) (res : RoutedChatResult)
    (found : RetrievedCandidates) (q : Query) (t : AnswerTrace) (hits : List RetrievalHit)
    (d : ChatRouteDecision) (rewrite : Option ChatQueryRewrite)
    (search : Option ChatKnowledgeSearch) : Prop where
  question : QuestionAdded T T' community res.answer.fallback found q t hits
  evidence : res.answer.evidence = found.merged.map FusedHit.evidence
  unretrieved : res.effectiveRoute = .modelOnly → ∀ leg, found.leg leg = []
  decisions : T'.chatRouteDecisions.rows = T.chatRouteDecisions.rows ++ [d]
  ofQuery : d.queryId = some q.queryId ∧
    ∀ x ∈ T'.chatRouteDecisions, x.queryId = some q.queryId → x = d
  ofResult : d.decisionId = res.decisionId ∧ d.communityId = community ∧
    d.requestedRoute = res.requestedRoute ∧ d.effectiveRoute = res.effectiveRoute
  rewrites : T'.chatQueryRewrites.rows = T.chatQueryRewrites.rows ++ rewrite.toList
  rewriteIff : rewrite.isSome = res.effectiveRoute.isMixed
  rewriteOf : ∀ x ∈ rewrite, x.decisionId = d.decisionId
  searches : T'.chatKnowledgeSearches.rows = T.chatKnowledgeSearches.rows ++ search.toList
  searchIff : search.isSome ↔ res.effectiveRoute = .notesPlusKnowledge
  searchOf : ∀ x ∈ search, x.decisionId = d.decisionId

/-- A reply that can not be graded raises `TypeError`. -/
theorem RoutedChatService.typeError_of_ungraded {service : RoutedChatService}
    {response : ChatResponse} {e : Exn} (h : service.Ungraded (.ok response) e) :
    ∃ message, e = .typeError message := by
  have hparsed : ∀ {α : Type} {family : AnswerFamily} {parse : String → Except Exn α}
      {failed : Generation} {parsed : ChatResponse → α → Generation},
      (OwnFamily family (parse response.rawText) ∨
        ∃ message, parse response.rawText = .error (.typeError message)) →
      Generation.grade family parse failed parsed (.ok response) = .error e →
      ∃ message, e = .typeError message := by
    rintro α family parse failed parsed (hown | ⟨message, hparse⟩) hgrade
    · have hgraded : ∃ g, Generation.grade family parse failed parsed (.ok response) = .ok g :=
        Generation.grade_replied hown
      obtain ⟨g, hg⟩ := hgraded
      rw [hg] at hgrade
      cases hgrade
    · unfold Generation.grade at hgrade
      dsimp only at hgrade
      rw [hparse] at hgrade
      exact ⟨message, (Except.error.inj hgrade).symm⟩
  cases h with
  | notesLookup h =>
    obtain ⟨context, h⟩ := h
    by_cases hs : StrayStructured service.query.json response.rawText
    · have hstray : ∃ message, parseStructuredAnswer service.query.json response.rawText context =
          .error (.typeError message) := parseStructuredAnswer_stray hs
      obtain ⟨message, hparse⟩ := hstray
      unfold QueryService.grade at h
      dsimp only at h
      rw [hparse] at h
      exact ⟨message, (Except.error.inj h).symm⟩
    · have hgraded : ∃ g, service.query.grade context (.ok response) = .ok g :=
        QueryService.grade_replied hs
      obtain ⟨g, hg⟩ := hgraded
      rw [hg] at h
      cases h
  | notesPlusModel context h =>
    refine hparsed ?_ h
    by_cases hs : StrayNotesPlusModel service.json response.rawText
    · exact .inr (parseNotesPlusModelAnswer_stray hs)
    · exact .inl (parseNotesPlusModelAnswer_own hs)
  | notesPlusKnowledge context refs h =>
    refine hparsed ?_ h
    by_cases hs : StrayNotesPlusKnowledge service.json response.rawText
    · exact .inr (parseNotesPlusKnowledgeAnswer_stray hs)
    · exact .inl (parseNotesPlusKnowledgeAnswer_own hs)
  | modelOnly h => exact hparsed (.inl parseModelOnlyAnswer_own) h

/-- Only the search seam raises `NotImplementedError`. -/
theorem Fault.search {service : RoutedChatService} {message : String} (henv : env.Declared)
    (h : Fault env service.Ungraded community w w' (.notImplementedError message)) :
    ∃ before c, w'.failures = before ++ [c] ∧ w.failures <+: before ∧ c.isSearch = true := by
  generalize he : Exn.notImplementedError message = e at h
  cases h with
  | store h =>
    obtain ⟨before, c, hfailures, hbefore, ⟨hsearch, -⟩ | ⟨n, -, hfails⟩⟩ := h
    · exact ⟨before, c, hfailures, hbefore, hsearch⟩
    · exact ⟨before, c, hfailures, hbefore, henv.repository n c message (he ▸ hfails)⟩
  | noCommunity h => cases he
  | embedding h => exact absurd (he ▸ h) (henv.embed _ _ _)
  | noVector h => cases he
  | undeclared h => exact absurd h (henv.optional _)
  | @grading n prompt _ _ _ h =>
    cases hreply : env.complete n prompt with
    | ok response =>
      rw [hreply] at h
      obtain ⟨text, rfl⟩ := RoutedChatService.typeError_of_ungraded h
      cases he
    | error e' =>
      obtain ⟨text, rfl⟩ := henv.complete n prompt e' hreply
      rw [hreply] at h
      cases h with
      | notesLookup h => exact nomatch h.choose_spec
      | notesPlusModel _ h | notesPlusKnowledge _ _ h | modelOnly h => exact nomatch h

/-- A question leaves the other traces as they are. -/
theorem Traced.untouched {queryId : String} {fallback : FallbackMode} {found : RetrievedCandidates}
    {T T' : Tables} (h : Traced env community queryId fallback found T T') :
    T'.chatRouteDecisions = T.chatRouteDecisions ∧ T'.chatQueryRewrites = T.chatQueryRewrites ∧
      T'.chatKnowledgeSearches = T.chatKnowledgeSearches := by
  obtain ⟨q, hits, t, lo, hi, -, rfl⟩ := h.rows
  exact ⟨rfl, rfl, rfl⟩

/-- A route that was there leaves the rows of its question, and what it rewrote and searched. -/
structure RouteTraced (env : Env) (community : String) (route : ChatRoute)
    (routed : RoutedChatService.Routed) (T T' : Tables) (queryId : String)
    (found : RetrievedCandidates) : Prop where
  queried : routed.queryId = some queryId
  candidates : Candidates T community found
  traced : Traced env community queryId routed.answer.fallback found T T'
  evidence : routed.answer.evidence = found.merged.map FusedHit.evidence
  unretrieved : route = .modelOnly → ∀ leg, found.leg leg = []
  rewritten : routed.rewrite.isSome = route.isMixed
  searched : routed.knowledge.isSome ↔ route = .notesPlusKnowledge

theorem RoutedEnd.traced {service : RoutedChatService} {question : String} {route : ChatRoute}
    {routed : RoutedChatService.Routed}
    (h : RoutedEnd env service community question w route routed w') (henv : env.Declared)
    (hseam : ∀ c ∈ w'.failures.drop w.failures.length, c.isSearch = false) :
    ∃ queryId found, RouteTraced env community route routed w.rows w'.rows queryId found := by
  cases h with
  | unavailable h =>
    obtain ⟨before, c, hfailures, hbefore, hsearch⟩ := h.search henv
    have hc : c ∈ w'.failures.drop w.failures.length := by
      rw [hfailures, List.drop_append_of_le_length hbefore.length_le]
      exact List.mem_append_right _ (List.mem_singleton_self c)
    rw [hseam c hc] at hsearch
    cases hsearch
  | notesLookup h =>
    obtain ⟨queryText, rfl⟩ := h.result
    exact ⟨_, _, rfl, h.candidates, h.traced, rfl, nofun, rfl, by simp⟩
  | modelOnly h =>
    have htraced := h.traced
    rw [h.result]
    refine ⟨_, _, rfl, candidates_nil _ _ _, htraced, rfl, fun _ leg => ?_, rfl, by simp⟩
    cases leg <;> rfl
  | notesPlusModel h =>
    obtain ⟨queryText, rfl⟩ := h.result
    exact ⟨_, _, rfl, h.candidates, h.traced, rfl, nofun, rfl, by simp⟩
  | notesPlusKnowledge _ h =>
    obtain ⟨queryText, rfl⟩ := h.result
    exact ⟨_, _, rfl, h.candidates, h.traced, rfl, nofun, rfl, by simp⟩

/-- Later writes of other traces do not touch the rows of a question. -/
theorem QuestionAdded.of_rows {T T₁ T' : Tables} {fallback : FallbackMode}
    {found : RetrievedCandidates} {q : Query} {t : AnswerTrace} {hits : List RetrievalHit}
    (h : QuestionAdded T T₁ community fallback found q t hits)
    (hrows : T'.queries = T₁.queries ∧ T'.answerTraces = T₁.answerTraces ∧
      T'.retrievalHits = T₁.retrievalHits) :
    QuestionAdded T T' community fallback found q t hits :=
  { h with
    queries := hrows.1 ▸ h.queries
    traces := hrows.2.1 ▸ h.traces
    hitRows := hrows.2.2 ▸ h.hitRows
    ofQuery := ⟨h.ofQuery.1, hrows.2.1 ▸ h.ofQuery.2⟩ }

/-- An optional row under a new key is added at the end. -/
theorem rows_put_option {K V : Type} [DecidableEq K] {key : V → K} {t : Table key} {row : Option V}
    (h : ∀ v ∈ row, ∀ x ∈ t, key x ≠ key v) :
    (row.elim t t.put).rows = t.rows ++ row.toList := by
  cases row with
  | none => exact (List.append_nil t.rows).symm
  | some v => exact Table.rows_put_of_fresh (h v rfl)

/-- A chat whose search seam did not raise leaves exactly its rows. -/
theorem Chatted.added {service : RoutedChatService} {question : String} {res : RoutedChatResult}
    {routed : RoutedChatService.Routed} {w₁ : World (kind.backend engine).State}
    {d : ChatRouteDecision} {rewrite : Option ChatQueryRewrite} {search : Option ChatKnowledgeSearch}
    (hT : w.rows.Linked)
    (h : Chatted env service community question w w' res routed w₁ d rewrite search)
    (henv : env.Declared)
    (hseam : ∀ c ∈ w'.failures.drop w.failures.length, c.isSearch = false) :
    ∃ found q t hits,
      ChatAdded w.rows w'.rows community res found q t hits d rewrite search := by
  have hsince : w₁.failures <+: w'.failures := h.log.filterMap _
  obtain ⟨queryId, found, hroute⟩ := h.route.traced henv fun c hc =>
    hseam c ((hsince.drop _).subset hc)
  obtain ⟨q, t, hits, hq, hquestion⟩ := hroute.traced.added hT hroute.candidates
  obtain ⟨hdecisions, hrewrites, hsearches⟩ := hroute.traced.untouched
  have hrows : w'.rows = ((w₁.rows.putDecision d).putRewriteOf rewrite).putSearchOf search := h.rows
  have hfresh : ∀ x ∈ w.rows.chatRouteDecisions, x.decisionId ≠ d.decisionId := hdecisions ▸ h.fresh
  have hput : w'.rows.chatRouteDecisions = w.rows.chatRouteDecisions.put d := by
    rw [hrows, ← hdecisions]
    cases rewrite <;> cases search <;> rfl
  have hputRows := Table.rows_put_of_fresh hfresh
  refine ⟨found, q, t, hits, ?_⟩
  refine
    { question := ?_, evidence := h.answer ▸ hroute.evidence, unretrieved := hroute.unretrieved
      decisions := hput ▸ hputRows, ofQuery := ⟨?_, fun x hx he => ?_⟩
      ofResult := ⟨h.decisionId, h.ofCommunity, h.requested, h.effective⟩
      rewrites := ?_, rewriteIff := h.rewritten.1.trans hroute.rewritten
      rewriteOf := fun x hx => (h.rewritten.2 x hx).1, searches := ?_
      searchIff := h.searched.1 ▸ hroute.searched
      searchOf := fun x hx => (h.searched.2 x hx).1 }
  · rw [h.answer]
    refine hquestion.of_rows ?_
    rw [hrows]
    cases rewrite <;> cases search <;> exact ⟨rfl, rfl, rfl⟩
  · rw [h.queryId, hroute.queried, hq]
  · rw [hput] at hx
    rcases (Table.mem_put_of_fresh hfresh).mp hx with hnew | hold
    · exact hnew
    · obtain ⟨y, hy, hid⟩ := hT.decision_query x hold q.queryId he
      exact absurd hid (hquestion.newQuery y hy)
  · have hnone : ∀ r ∈ rewrite, ∀ x ∈ w.rows.chatQueryRewrites, x.decisionId ≠ r.decisionId := by
      intro r hr x hx he
      obtain ⟨y, hy, hid⟩ := hT.rewrite_decision x hx
      exact hfresh y hy (hid.trans (he.trans (h.rewritten.2 r hr).1))
    rw [← rows_put_option hnone, hrows, ← hrewrites]
    cases rewrite <;> cases search <;> rfl
  · have hnone : ∀ s ∈ search, ∀ x ∈ w.rows.chatKnowledgeSearches, x.decisionId ≠ s.decisionId := by
      intro s hs x hx he
      obtain ⟨y, hy, hid⟩ := hT.search_decision x hx
      exact hfresh y hy (hid.trans (he.trans (h.searched.2 s hs).1))
    rw [← rows_put_option hnone, hrows, ← hsearches]
    cases rewrite <;> cases search <;> rfl

/-! ## After every run -/

/-- After every run, a question that returns leaves exactly its rows; so does a chat that returns
and whose search seam did not raise, when the providers raise what they declare. -/
theorem provenance (kind : StoreKind) (engine : SearchEngine) (env : Env) (ops : List Operation) :
    let B := kind.backend engine
    let w := runAll B env (World.initial kind engine) ops
    (∀ (service : QueryService) (message : InboundMessage) (dateRange : Option DateRange)
      (subjectScope : Option String) (a : AnswerResult),
      let r := (service.answer message dateRange subjectScope).exec B env w
      r.1 = .ok a → ∃ found q t hits, a.evidence = found.merged.map FusedHit.evidence ∧
        QuestionAdded w.rows r.2.rows message.communityId a.fallback found q t hits) ∧
    ∀ (service : RoutedChatService) (message : InboundMessage) (subjectScope : Option String)
      (res : RoutedChatResult),
      let r := (service.chat message subjectScope).exec B env w
      r.1 = .ok res → env.Declared →
      (∀ c ∈ r.2.failures.drop w.failures.length, c.isSearch = false) →
      ∃ found q t hits d rewrite search, ChatAdded w.rows r.2.rows message.communityId res found q t
        hits d rewrite search := by
  intro B w
  have hs : Sound env w := sound_run env ops
  refine ⟨?_, ?_⟩
  · intro service message dateRange subjectScope a r hr
    have hend : QuestionEnd env service message.communityId w r.1 r.2 :=
      (Proc.exec_of_wp hs (wp_answer message dateRange subjectScope hs)).2.2
    rw [hr] at hend
    obtain ⟨context, found, g, h⟩ := hend
    obtain ⟨q, t, hits, -, hadded⟩ := h.traced.added hs.linked h.candidates
    obtain ⟨queryText, rfl⟩ := h.result
    exact ⟨found, q, t, hits, rfl, hadded⟩
  · intro service message subjectScope res r hr henv hseam
    have hend : ChatEnd env service message.communityId (PyText.strip message.payload) w r.1 r.2 :=
      (Proc.exec_of_wp hs (wp_chat hs)).2.2
    rw [hr] at hend
    obtain ⟨routed, w₁, d, rewrite, search, h⟩ := hend
    obtain ⟨found, q, t, hits, hadded⟩ := h.added hs.linked henv hseam
    exact ⟨found, q, t, hits, d, rewrite, search, hadded⟩

/-- The classifier takes every question for one that needs the knowledge source, and the chat
provider is unavailable. -/
def Env.chatUnavailable : Env :=
  { Env.steady with
    classify := fun _ _ => .ok ⟨.notesPlusKnowledge, "", "model", 0⟩
    complete := fun _ _ => .error (.chatProviderUnavailable "unreachable") }

theorem Env.chatUnavailable_declared : Env.chatUnavailable.Declared where
  embed _ _ _ := nofun
  complete n prompt e h := ⟨_, (Except.error.inj h).symm⟩
  optional e h := by cases h with
    | classifier h | rewriter h | outwardRewriter h | knowledge h => cases h
  repository _ _ _ := nofun

/-- A chat over one note on the route with knowledge. -/
theorem provenance_unavailable :
    let B := StoreKind.mock.backend .plain
    let service : RoutedChatService :=
      ⟨"model", ⟨⟨"model", 1⟩, "chat", .standard, 5, 20, by decide⟩, "chat", some "model",
        some "source", none⟩
    let w := runAll B .chatUnavailable (World.initial .mock .plain)
      [.ingest ⟨some ⟨"model", 1⟩⟩ (.plain .note "2026-05-09\nwalk" 0)]
    let r := (service.chat (.plain .chat "walk" 1) none).exec B .chatUnavailable w
    r.2.rows.retrievalHits.rows.length = 3 ∧ ∃ res found q t hits d rewrite search, r.1 = .ok res ∧
      res.effectiveRoute = .notesPlusKnowledge ∧ res.answer.fallback = .providerUnavailable ∧
      ChatAdded w.rows r.2.rows "community" res found q t hits d rewrite search := by
  intro B service w r
  have hroute : r.1.toOption.map (fun res => (res.effectiveRoute, res.answer.fallback)) =
      some (.notesPlusKnowledge, .providerUnavailable) := by decide +kernel
  have hseam : ∀ c ∈ r.2.failures.drop w.failures.length, c.isSearch = false := by decide +kernel
  refine ⟨by decide +kernel, ?_⟩
  cases hr : r.1 with
  | error e =>
    rw [hr] at hroute
    cases hroute
  | ok res =>
    rw [hr] at hroute
    obtain ⟨found, q, t, hits, d, rewrite, search, h⟩ := (provenance .mock .plain .chatUnavailable
      [.ingest ⟨some ⟨"model", 1⟩⟩ (.plain .note "2026-05-09\nwalk" 0)]).2 service
      (.plain .chat "walk" 1) none res hr Env.chatUnavailable_declared hseam
    exact ⟨res, found, q, t, hits, d, rewrite, search, rfl,
      congrArg Prod.fst (Option.some.inj hroute), congrArg Prod.snd (Option.some.inj hroute), h⟩

end DiaryMemory
