import DiaryMemory.Questions
import DiaryMemory.RoutedChat

/-!
# What the routed chat does

A chat ends in the answer of the route it took (`RoutedEnd`), with the trace rows of the
route and one routing decision after them (`ChatEnd`), or in an exception with a `Fault`.
The mixed routes share the shape of their answer (`MixedAnswered`) and differ in how the
reply of the chat provider is graded.
-/

namespace DiaryMemory

variable {kind : StoreKind} {engine : SearchEngine} {env : Env}
  {w : World (kind.backend engine).State} {service : RoutedChatService}

/-! ## Asking the optional providers -/

section Providers

variable (ungraded : Except Exn ChatResponse → Exn → Prop) (community : String)

theorem wp_classify (question : String) :
    wp (contract kind engine env QuietCall) (RoutedChatService.classify question)
      (Blamed env ungraded community (fun _ => True) w) w := by
  unfold RoutedChatService.classify
  split
  · trivial
  refine (wp_bind _ _ _ w).mpr ((wp_capture _ _ w).mpr (wp_sys trivial ?_))
  rintro r w' - - ⟨n, -, hr⟩
  simp only [onValue]
  split
  · trivial
  · trivial
  · next e h1 h2 => exact .undeclared (.classifier hr.symm ⟨fun raw he => h1 raw he, h2⟩)
  · trivial

theorem wp_rewrite (question : String) :
    wp (contract kind engine env QuietCall) (service.rewrite question)
      (Blamed env ungraded community (fun _ => True) w) w := by
  unfold RoutedChatService.rewrite
  split
  · trivial
  refine wp_now_bind trivial fun now w₁ _ ht => ?_
  refine (wp_bind _ _ _ w₁).mpr ((wp_capture _ _ w₁).mpr (wp_sys trivial ?_))
  rintro r w' - - ⟨n, -, hr⟩
  simp only [onValue]
  split
  · trivial
  · trivial
  · next e h1 h2 => exact .undeclared (.rewriter hr.symm ⟨fun raw he => h1 raw he, h2⟩)
  · next rewrite =>
    generalize normalizeQuery rewrite.retrievalQuery = text
    split <;> trivial

theorem wp_rewriteOutward (question : String) (notesContext : List String) :
    wp (contract kind engine env QuietCall) (service.rewriteOutward question notesContext)
      (Blamed env ungraded community (fun _ => True) w) w := by
  unfold RoutedChatService.rewriteOutward
  split
  · trivial
  refine (wp_bind _ _ _ w).mpr ((wp_capture _ _ w).mpr (wp_sys trivial ?_))
  rintro r w' - - ⟨n, -, hr⟩
  simp only [onValue]
  split
  · trivial
  · trivial
  · next e h1 h2 => exact .undeclared (.outwardRewriter hr.symm ⟨fun raw he => h1 raw he, h2⟩)
  · trivial

/-- The excerpts are what a search returned, or none. -/
def Found (env : Env) (query : String) (excerpts : List KnowledgeExcerpt) : Prop :=
  excerpts = [] ∨ ∃ n result, env.search n query = .ok result ∧ result.excerpts = excerpts

theorem wp_searchKnowledge (query : String) :
    wp (contract kind engine env QuietCall) (RoutedChatService.searchKnowledge query)
      (Blamed env ungraded community (fun found => Found env query found.excerpts) w) w := by
  unfold RoutedChatService.searchKnowledge
  refine (wp_bind _ _ _ w).mpr ((wp_capture _ _ w).mpr (wp_sys trivial ?_))
  rintro r w' - - ⟨n, -, hr⟩
  simp only [onValue]
  split
  · exact .inl rfl
  · exact .inl rfl
  · next e h1 h2 => exact .undeclared (.knowledge hr.symm ⟨fun raw he => h1 raw he, h2⟩)
  · next result => exact .inr ⟨n, result, hr.symm, rfl⟩

end Providers

/-! ## The mixed routes -/

/-- The result of a generation. -/
def Generation.result (g : Generation) (queryText : String) (context : AnswerContext)
    (merged : List FusedHit) : AnswerResult where
  fallback := g.fallback
  queryText := queryText
  evidence := merged.map FusedHit.evidence
  context := some context
  answerText := g.answerText
  citedChunkIds := g.citedChunkIds
  modelText := g.modelText
  knowledgeText := g.knowledgeText
  knowledgeRefs := g.knowledgeRefs

theorem wp_finishMixed {promptVersion : String} {found : RetrievedCandidates}
    {query : Query} {context : AnswerContext} {g : Generation} (hs : Sound env w)
    (hdrawn : Drawn env.uuid w.draws query.queryId)
    (hnew : ∀ x ∈ w.rows.queries, x.queryId ≠ query.queryId)
    (hfound : Candidates w.rows query.communityId found)
    (hcontext : context.chunkIds = found.merged.map FusedHit.chunkId) :
    wp (contract kind engine env (AnswerCall query.communityId))
      (service.finishMixed query found context promptVersion g)
      (fun r w' => w'.prompts = w.prompts ∧ match r with
        | .ok a => a = g.result query.queryText context found.merged ∧
          Traced env query.communityId query.queryId g.fallback found w.rows w'.rows
        | .error e => StoreRaised env w e w') w := by
  unfold RoutedChatService.finishMixed
  set saved : Query := { query with fallback := g.fallback } with hsaved
  have hnew' : ∀ x ∈ w.rows.queries, x.queryId ≠ saved.queryId := hnew
  refine wp_seq hs (wp_asking (wp_saveQueryAndHits (q := saved) hs hdrawn hnew' hfound))
    (fun e w₁ _ h => h.1) fun _ w₁ hs₁ h => ?_
  obtain ⟨⟨hprompts, hits, lo, hi, hhits, hlo, hrows⟩, hasking⟩ := h
  have hquery : saved ∈ w₁.rows.queries := hrows ▸ Table.mem_put_self
  have htraces : w₁.rows.answerTraces = w.rows.answerTraces := hrows ▸ rfl
  refine wp_uuid4_bind trivial fun j w₂ hs₂ ht hj hj' => ?_
  have hl : Later w₁ w₂ := ht.later rfl nofun
  have hminted : w.rows.Minted env.uuid w₁.draws := hs.minted.mono hasking.draws
  have hprompts₂ : w₂.prompts = w.prompts := hl.quiet.prompts.trans hprompts
  refine wp_repo_bind (allowed_saveTrace hs.linked hnew' hminted hquery htraces hj rfl rfl hl.rows
    hj') ⟨saved, hl.rows ▸ hquery, rfl, rfl⟩ (fun e w₃ _ hr => ⟨hr.prompts.trans hprompts₂,
      .after (hasking.log.trans hl.log) (.of_write hr id)⟩) fun _ w₃ _ hr => ?_
  · have hrows₃ := hr.rows
    rw [hl.rows, hrows] at hrows₃
    exact ⟨hr.prompts.trans hprompts₂, rfl, ⟨saved, hits, _, lo, hi,
      ⟨⟨rfl, rfl, rfl⟩, ⟨rfl, rfl, hcontext⟩, hhits, hlo⟩, hrows₃⟩, hnew⟩

/-- What a question answered on a mixed route leaves. -/
structure MixedAnswered (env : Env)
    (grade : AnswerContext → Except Exn ChatResponse → Except Exn Generation)
    (community queryId : String) (w w' : World (kind.backend engine).State) (a : AnswerResult)
    (context : AnswerContext) (found : RetrievedCandidates) (g : Generation) : Prop where
  result : ∃ queryText, a = g.result queryText context found.merged
  chunks : context.orderedChunks = found.merged.map FusedHit.chunk
  query : context.queryId = queryId
  candidates : Candidates w.rows community found
  verdict : ∃ n prompt, w.tick ≤ n ∧ w'.prompts = w.prompts ++ [prompt] ∧
    grade context (env.complete n prompt) = .ok g
  traced : Traced env community queryId g.fallback found w.rows w'.rows

theorem MixedAnswered.after {grade : AnswerContext → Except Exn ChatResponse → Except Exn Generation}
    {community queryId : String} {w₁ w' : World (kind.backend engine).State} {a : AnswerResult}
    {context : AnswerContext} {found : RetrievedCandidates} {g : Generation} (hq : Quiet w w₁)
    (h : MixedAnswered env grade community queryId w₁ w' a context found g) :
    MixedAnswered env grade community queryId w w' a context found g where
  result := h.result
  chunks := h.chunks
  query := h.query
  candidates := hq.rows ▸ h.candidates
  verdict := by
    obtain ⟨n, prompt, hn, hreply⟩ := h.verdict
    exact ⟨n, prompt, hq.log.length_le.trans hn, hq.prompts ▸ hreply⟩
  traced := hq.rows ▸ h.traced

/-- The provider replied, and the reply is graded and persisted. -/
theorem wp_replied {α : Type}
    {ungraded : Except Exn ChatResponse → Exn → Prop}
    {grade : AnswerContext → Except Exn ChatResponse → Except Exn Generation}
    (hungraded : ∀ context reply e, grade context reply = .error e → ungraded reply e)
    {community promptVersion : String} {found : RetrievedCandidates} {query : Query}
    {prompt : AnswerPrompt} {f : AnswerResult → α} (hdrawn : Drawn env.uuid w.draws query.queryId)
    (hnew : ∀ x ∈ w.rows.queries, x.queryId ≠ query.queryId)
    (hcommunity : query.communityId = community) (hfound : Candidates w.rows community found) :
    wp (contract kind engine env (AnswerCall community))
      (do
        let response ← capture (Proc.complete prompt)
        let g ← Proc.ofExcept (grade (assembleAnswerContext query found.merged) response)
        let result ← service.finishMixed query found (assembleAnswerContext query found.merged)
          promptVersion g
        pure (f result))
      (fun r w' => match r with
        | .ok x => ∃ a context g, x = f a ∧
          MixedAnswered env grade community query.queryId w w' a context found g
        | .error e => Fault env ungraded community w w' e) w := by
  subst hcommunity
  refine wp_complete_bind trivial fun n w₁ hn hs₁ ht => ?_
  rw [wp_bind, wp_ofExcept]
  have hprompts := ht.prompts
  cases hgrade : grade (assembleAnswerContext query found.merged) (env.complete n prompt) with
  | error e => exact .grading hn hprompts (hungraded _ _ _ hgrade)
  | ok g =>
    rw [← ht.rows] at hnew hfound
    refine wp_seq hs₁ (wp_finishMixed hs₁ (hdrawn.mono ht.draws) hnew hfound (List.map_map ..))
      (fun e w₂ _ h => .store (h.2.after ht.log))
      fun a w₂ _ h => ?_
    obtain ⟨hprompts₂, rfl, htraced⟩ := h
    rw [ht.rows] at htraced
    exact ⟨_, _, g, rfl, ⟨_, rfl⟩, rfl, rfl, ht.rows ▸ hfound, ⟨n, _, hn, hprompts₂.trans hprompts, hgrade⟩,
      htraced⟩

/-- Grading refuses a reply on one of the routes. -/
inductive RoutedChatService.Ungraded (service : RoutedChatService)
    (reply : Except Exn ChatResponse) (e : Exn) : Prop
  | notesLookup (h : service.query.Ungraded reply e)
  | notesPlusModel (context : AnswerContext)
      (h : service.gradeNotesPlusModel context reply = .error e)
  | notesPlusKnowledge (context : AnswerContext) (refs : List String)
      (h : service.gradeNotesPlusKnowledge context refs reply = .error e)
  | modelOnly (h : service.gradeModelOnly reply = .error e)

section Routes

variable {message : InboundMessage} {question : String} {subjectScope : Option String}

/-- Where a question starts : its query identifier is drawn. -/
theorem wp_queryId_bind {β : Type} {community : String} {f : DateTime → String → Proc β}
    {Q : Except Exn β → World (kind.backend engine).State → Prop} (hs : Sound env w)
    (h : ∀ now j w₁, Sound env w₁ → Quiet w w₁ → j < w₁.draws →
      (∀ x ∈ w₁.rows.queries, x.queryId ≠ env.uuid j) →
      wp (contract kind engine env (AnswerCall community)) (f now (env.uuid j)) Q w₁) :
    wp (contract kind engine env (AnswerCall community))
      (do
        let now ← Proc.now
        let queryId ← Proc.uuid4
        f now queryId) Q w := by
  refine wp_now_bind trivial fun now w₁ hs₁ ht₁ => ?_
  refine wp_uuid4_bind trivial fun j w₂ hs₂ ht₂ hj hj' => ?_
  have hq : Quiet w w₂ := ((ht₁.later rfl nofun).trans (ht₂.later rfl nofun)).quiet
  refine h now j w₂ hs₂ hq hj' ?_
  rw [hq.rows]
  exact fun x hx => (hs.minted.query x hx).ne env.uuid_injective (ht₁.draws.trans hj)

/-- A quiet step, then the rest. -/
theorem wp_quiet_bind {α β : Type} {p : Proc α} {f : α → Proc β} {V : α → Prop}
    {ungraded : Except Exn ChatResponse → Exn → Prop} {community : String}
    {Q : Except Exn β → World (kind.backend engine).State → Prop} (hs : Sound env w)
    (hp : wp (contract kind engine env QuietCall) p (Blamed env ungraded community V w) w)
    (herror : ∀ e w', Fault env ungraded community w w' e → Q (.error e) w')
    (h : ∀ a w₁, Sound env w₁ → Quiet w w₁ → V a →
      wp (contract kind engine env (AnswerCall community)) (f a) Q w₁) :
    wp (contract kind engine env (AnswerCall community)) (p >>= f) Q w :=
  wp_seq hs (wp_promise QuietCall.answerCall (wp_quiet hp)) (fun e w₁ _ hb => herror e w₁ hb.1)
    fun a w₁ hs₁ hb => h a w₁ hs₁ hb.2 hb.1

/-- Where a question on the route of notes and model knowledge may end. -/
def NotesPlusModelEnd (env : Env) (service : RoutedChatService) (community : String)
    (w : World (kind.backend engine).State) :
    Except Exn (AnswerResult × String × RewriteCapture) → World (kind.backend engine).State → Prop
  | .ok x, w' => ∃ context found g, MixedAnswered env service.gradeNotesPlusModel community x.2.1
    w w' x.1 context found g
  | .error e, w' => Fault env service.Ungraded community w w' e

theorem servable_community {T : Tables} {community : String} {found : RetrievedCandidates}
    (h : Candidates T community found) :
    ∀ c ∈ found.merged.map FusedHit.chunk, c.communityId = community := by
  intro c hc
  obtain ⟨m, hm, rfl⟩ := List.mem_map.mp hc
  exact (h.merged m hm).2.1

theorem wp_answerNotesPlusModel (hs : Sound env w) :
    wp (contract kind engine env (AnswerCall message.communityId))
      (service.answerNotesPlusModel message question subjectScope)
      (NotesPlusModelEnd env service message.communityId w) w := by
  have hungraded : ∀ context reply e, service.gradeNotesPlusModel context reply = .error e →
      service.Ungraded reply e := fun context _ _ h => .notesPlusModel context h
  unfold RoutedChatService.answerNotesPlusModel
  refine wp_queryId_bind hs fun createdAt j w₁ hs₁ hq₁ hj hnew => ?_
  refine wp_quiet_bind hs₁ (wp_rewrite service.Ungraded message.communityId question)
    (fun e w' h => Fault.after hq₁ h) fun rewritten w₂ hs₂ hq₂ _ => ?_
  have hq := hq₁.trans hq₂
  refine wp_quiet_bind hs₂ (wp_retrieve service.query service.Ungraded message.communityId _ _ _)
    (fun e w' h => Fault.after hq h) fun found w₃ hs₃ hq₃ hfound => ?_
  have hq' := hq.trans hq₃
  rw [← hq₃.rows] at hfound
  rw [← hq₂.rows, ← hq₃.rows] at hnew
  dsimp only
  rw [buildNotesPlusModelPrompt, checkSingleCommunity_ok _ (servable_community hfound)]
  refine wp_imp (fun r w' h => ?_) (wp_replied hungraded
    ⟨j, hj.trans_le (hq₂.draws.trans hq₃.draws), rfl⟩ hnew rfl hfound)
  cases r with
  | error e => exact Fault.after hq' h
  | ok x =>
    obtain ⟨a, context, g, rfl, h⟩ := h
    exact ⟨context, found, g, h.after hq'⟩

/-- Where a question on the route of notes, knowledge and model knowledge may end. -/
def NotesPlusKnowledgeEnd (env : Env) (service : RoutedChatService) (community : String)
    (w : World (kind.backend engine).State) :
    Except Exn (AnswerResult × String × RewriteCapture × KnowledgeCapture) →
      World (kind.backend engine).State → Prop
  | .ok x, w' => ∃ query excerpts context found g, Found env query excerpts ∧
    MixedAnswered env (fun context => service.gradeNotesPlusKnowledge context
      (excerpts.map KnowledgeExcerpt.ref)) community x.2.1 w w' x.1 context found g
  | .error e, w' => Fault env service.Ungraded community w w' e

theorem wp_answerNotesPlusKnowledge (hs : Sound env w) (hsource : service.knowledgeSource.isSome) :
    wp (contract kind engine env (AnswerCall message.communityId))
      (service.answerNotesPlusKnowledge message question subjectScope)
      (NotesPlusKnowledgeEnd env service message.communityId w) w := by
  unfold RoutedChatService.answerNotesPlusKnowledge
  split
  · next hnone => simp [hnone] at hsource
  refine wp_queryId_bind hs fun createdAt j w₁ hs₁ hq₁ hj hnew => ?_
  refine wp_quiet_bind hs₁ (wp_rewrite service.Ungraded message.communityId question)
    (fun e w' h => Fault.after hq₁ h) fun rewritten w₂ hs₂ hq₂ _ => ?_
  have hq := hq₁.trans hq₂
  refine wp_quiet_bind hs₂ (wp_retrieve service.query service.Ungraded message.communityId _ _ _)
    (fun e w' h => Fault.after hq h) fun found w₃ hs₃ hq₃ hfound => ?_
  have hq₃' := hq.trans hq₃
  refine wp_quiet_bind hs₃ (wp_rewriteOutward service.Ungraded message.communityId question _)
    (fun e w' h => Fault.after hq₃' h) fun outward w₄ hs₄ hq₄ _ => ?_
  have hq₄' := hq₃'.trans hq₄
  refine wp_quiet_bind hs₄ (wp_searchKnowledge service.Ungraded message.communityId _)
    (fun e w' h => Fault.after hq₄' h) fun knowledge w₅ hs₅ hq₅ hknowledge => ?_
  have hq' := hq₄'.trans hq₅
  rw [← hq₃.rows, ← hq₄.rows, ← hq₅.rows] at hfound
  rw [← hq₂.rows, ← hq₃.rows, ← hq₄.rows, ← hq₅.rows] at hnew
  have hungraded : ∀ context reply e, service.gradeNotesPlusKnowledge context
      (knowledge.excerpts.map KnowledgeExcerpt.ref) reply = .error e → service.Ungraded reply e :=
    fun context _ _ h => .notesPlusKnowledge context _ h
  have hdraws := ((hq₂.draws.trans hq₃.draws).trans hq₄.draws).trans hq₅.draws
  rw [buildNotesPlusKnowledgePrompt, checkSingleCommunity_ok _ (servable_community hfound)]
  refine wp_imp (fun r w' h => ?_)
    (wp_replied hungraded ⟨j, hj.trans_le hdraws, rfl⟩ hnew rfl hfound)
  cases r with
  | error e => exact Fault.after hq' h
  | ok x =>
    obtain ⟨a, context, g, rfl, h⟩ := h
    exact ⟨_, _, context, found, g, hknowledge, h.after hq'⟩

/-- What a question answered from general knowledge leaves. -/
structure ModelOnlyAnswered (env : Env) (service : RoutedChatService)
    (community queryId question : String) (w w' : World (kind.backend engine).State)
    (a : AnswerResult) (g : Generation) : Prop where
  result : a = { fallback := g.fallback, queryText := question, answerText := g.answerText }
  verdict : ∃ n prompt, w.tick ≤ n ∧ w'.prompts = w.prompts ++ [prompt] ∧
    service.gradeModelOnly (env.complete n prompt) = .ok g
  traced : Traced env community queryId g.fallback ⟨[], [], [], service.chatModelName⟩ w.rows w'.rows

/-- Where a question on the route of general knowledge may end. -/
def ModelOnlyEnd (env : Env) (service : RoutedChatService) (community question : String)
    (w : World (kind.backend engine).State) :
    Except Exn (AnswerResult × String) → World (kind.backend engine).State → Prop
  | .ok x, w' => ∃ g, ModelOnlyAnswered env service community x.2 question w w' x.1 g
  | .error e, w' => Fault env service.Ungraded community w w' e

theorem hitsOf_nil {lo hi : Nat} {queryId modelName : String} :
    HitsOf env lo hi queryId ⟨[], [], [], modelName⟩ [] := ⟨.nil, rfl, rfl⟩

theorem wp_answerModelOnly (hs : Sound env w) :
    wp (contract kind engine env (AnswerCall message.communityId)) (service.answerModelOnly message question)
      (ModelOnlyEnd env service message.communityId question w) w := by
  unfold RoutedChatService.answerModelOnly
  refine wp_queryId_bind hs fun createdAt j w₁ hs₁ hq₁ hj hnew => ?_
  refine wp_complete_bind trivial fun n w₂ hn hs₂ ht => ?_
  rw [wp_bind, wp_ofExcept]
  have hprompts : w₂.prompts = w.prompts ++ [buildModelOnlyPrompt question] := by
    rw [ht.prompts, hq₁.prompts]
    rfl
  have hlog : w.log <+: w₂.log := hq₁.log.trans ht.log
  cases hgrade : service.gradeModelOnly (env.complete n (buildModelOnlyPrompt question)) with
  | error e => exact .grading (hq₁.log.length_le.trans hn) hprompts (.modelOnly hgrade)
  | ok g =>
    have hdraws := hj.trans_le ht.draws
    have hrows₂ : w₂.rows = w.rows := ht.rows.trans hq₁.rows
    rw [hq₁.rows] at hnew
    refine wp_repo_bind ⟨?_, fun id hid => ?_⟩ rfl
      (fun e w₃ _ hr => Fault.store (.after hlog (.of_write hr id))) fun _ w₃ hs₃ hr => ?_
    · rw [hrows₂]
      exact hnew
    · rw [List.mem_singleton.mp hid]
      exact ⟨j, hdraws, rfl⟩
    refine wp_uuid4_bind trivial fun k w₄ hs₄ ht₄ hk hk' => ?_
    have hl := ht₄.later rfl nofun
    have hrows₃ : w₃.rows = w.rows.putQuery ⟨env.uuid j, message.communityId, question,
        service.chatModelName, g.fallback, createdAt, none⟩ := hrows₂ ▸ hr.rows
    have hquery : ⟨env.uuid j, message.communityId, question, service.chatModelName, g.fallback,
        createdAt, none⟩ ∈ w₃.rows.queries := by
      rw [hrows₃]
      exact Table.mem_put_self
    have hminted : w.rows.Minted env.uuid w₃.draws :=
      hs.minted.mono ((hq₁.draws.trans ht.draws).trans hr.draws)
    refine wp_repo_bind (allowed_saveTrace hs.linked hnew hminted hquery (by rw [hrows₃]; rfl) hk rfl
      rfl hl.rows hk') ⟨_, hl.rows ▸ hquery, rfl, rfl⟩ (fun e w₅ _ hr₅ =>
        Fault.store (.after ((hlog.trans hr.log).trans hl.log) (.of_write hr₅ id)))
      fun _ w₅ _ hr₅ => ?_
    · have hrows₅ := hr₅.rows
      rw [hl.rows, hrows₃] at hrows₅
      refine ⟨g, rfl, ⟨n, _, hq₁.log.length_le.trans hn, ?_, hgrade⟩, ⟨_, [], _, w.draws, w.draws,
        ⟨⟨rfl, rfl, rfl⟩, ⟨rfl, rfl, rfl⟩, hitsOf_nil, hs.minted⟩, hrows₅⟩, hnew⟩
      rw [hr₅.prompts, hl.quiet.prompts, hr.prompts, hprompts]

/-! ## The route taken -/

/-- Where the route taken may end. -/
inductive RoutedEnd (env : Env) (service : RoutedChatService) (community question : String)
    (w : World (kind.backend engine).State) :
    ChatRoute → RoutedChatService.Routed → World (kind.backend engine).State → Prop
  /-- Something raised `NotImplementedError`. -/
  | unavailable {route : ChatRoute} {message : String} {w'}
      (h : Fault env service.Ungraded community w w' (.notImplementedError message)) :
      RoutedEnd env service community question w route
        (RoutedChatService.retrievalUnavailable question) w'
  | notesLookup {a : AnswerResult} {context : AnswerContext} {found : RetrievedCandidates}
      {g : Graded} {w'} (h : Answered env service.query community w w' a context found g) :
      RoutedEnd env service community question w .notesLookup
        { answer := a, queryId := some context.queryId } w'
  | modelOnly {a : AnswerResult} {queryId : String} {g : Generation} {w'}
      (h : ModelOnlyAnswered env service community queryId question w w' a g) :
      RoutedEnd env service community question w .modelOnly { answer := a, queryId := some queryId } w'
  | notesPlusModel {a : AnswerResult} {queryId : String} {rewrite : RewriteCapture}
      {context : AnswerContext} {found : RetrievedCandidates} {g : Generation} {w'}
      (h : MixedAnswered env service.gradeNotesPlusModel community queryId w w' a context found g) :
      RoutedEnd env service community question w .notesPlusModel
        { answer := a, queryId := some queryId, rewrite := some rewrite } w'
  | notesPlusKnowledge {a : AnswerResult} {queryId query : String} {rewrite : RewriteCapture}
      {knowledge : KnowledgeCapture} {excerpts : List KnowledgeExcerpt} {context : AnswerContext}
      {found : RetrievedCandidates} {g : Generation} {w'} (hf : Found env query excerpts)
      (h : MixedAnswered env (fun context => service.gradeNotesPlusKnowledge context
        (excerpts.map KnowledgeExcerpt.ref)) community queryId w w' a context found g) :
      RoutedEnd env service community question w .notesPlusKnowledge
        { answer := a, queryId := some queryId, rewrite := some rewrite
          knowledge := some knowledge } w'

theorem Fault.mono {ungraded ungraded' : Except Exn ChatResponse → Exn → Prop} {community : String}
    {w' : World (kind.backend engine).State} {e : Exn}
    (hmono : ∀ reply e, ungraded reply e → ungraded' reply e)
    (h : Fault env ungraded community w w' e) : Fault env ungraded' community w w' e := by
  cases h with
  | store h => exact .store h
  | noCommunity h => exact .noCommunity h
  | embedding h => exact .embedding h
  | noVector h => exact .noVector h
  | undeclared h => exact .undeclared h
  | grading hn hprompts h => exact .grading hn hprompts (hmono _ _ h)

/-- Where the answer by a route may end. -/
def AnswerByEnd (env : Env) (service : RoutedChatService) (community question : String)
    (route : ChatRoute) (w : World (kind.backend engine).State) :
    Except Exn RoutedChatService.Routed → World (kind.backend engine).State → Prop
  | .ok routed, w' => RoutedEnd env service community question w route routed w'
  | .error e, w' => Fault env service.Ungraded community w w' e

theorem wp_orUnavailable {community : String} {route : ChatRoute}
    {p : Proc RoutedChatService.Routed}
    (hp : wp (contract kind engine env (AnswerCall community)) p
      (AnswerByEnd env service community question route w) w) :
    wp (contract kind engine env (AnswerCall community)) (RoutedChatService.orUnavailable question p)
      (AnswerByEnd env service community question route w) w := by
  unfold RoutedChatService.orUnavailable
  refine (wp_bind _ _ _ w).mpr ((wp_capture _ _ w).mpr (wp_imp (fun r w' h => ?_) hp))
  simp only [onValue]
  split
  · exact .unavailable h
  · exact h
  · exact h

theorem wp_answerBy (hs : Sound env w) {route : ChatRoute}
    (hsource : route = .notesPlusKnowledge → service.knowledgeSource.isSome) :
    wp (contract kind engine env (AnswerCall message.communityId))
      (service.answerBy message question subjectScope route)
      (AnswerByEnd env service message.communityId question route w) w := by
  cases route with
  | modelOnly =>
    exact wp_seq hs (wp_answerModelOnly hs) (fun e w' _ h => h) fun x w' _ h => .modelOnly h.choose_spec
  | notesPlusModel =>
    refine wp_orUnavailable (wp_seq hs (wp_answerNotesPlusModel hs) (fun e w' _ h => h)
      fun x w' _ h => ?_)
    obtain ⟨context, found, g, h⟩ := h
    exact .notesPlusModel h
  | notesPlusKnowledge =>
    refine wp_orUnavailable (wp_seq hs (wp_answerNotesPlusKnowledge hs (hsource rfl))
      (fun e w' _ h => h) fun x w' _ h => ?_)
    obtain ⟨query, excerpts, context, found, g, hf, h⟩ := h
    exact .notesPlusKnowledge hf h
  | notesLookup =>
    refine wp_orUnavailable (wp_seq hs (wp_answer message none subjectScope hs)
      (fun e w' _ h => Fault.mono (fun _ _ => .notesLookup) h) fun a w' _ h => ?_)
    obtain ⟨context, found, g, h⟩ := h
    obtain ⟨queryText, rfl⟩ := h.result
    exact .notesLookup h

end Routes

/-! ## The routing decision -/

/-- Add the rewrite row of a decision, if there is one. -/
def Tables.putRewriteOf (T : Tables) (r : Option ChatQueryRewrite) : Tables :=
  r.elim T T.putRewrite

/-- Add the knowledge row of a decision, if there is one. -/
def Tables.putSearchOf (T : Tables) (s : Option ChatKnowledgeSearch) : Tables :=
  s.elim T T.putSearch

section Deciding

variable {decisionId community : String}

theorem wp_saveRewrite (hs : Sound env w)
    (hdecision : ∃ d ∈ w.rows.chatRouteDecisions, d.decisionId = decisionId)
    (hnone : ∀ x ∈ w.rows.chatQueryRewrites, x.decisionId ≠ decisionId)
    (rewritten : Option RewriteCapture) :
    wp (contract kind engine env (AnswerCall community))
      (RoutedChatService.saveRewrite decisionId community rewritten)
      (fun r w' => w'.prompts = w.prompts ∧ match r with
        | .ok _ => ∃ row : Option ChatQueryRewrite, row.isSome = rewritten.isSome ∧
          (∀ x ∈ row, x.decisionId = decisionId ∧ x.communityId = community) ∧
          w'.rows = w.rows.putRewriteOf row
        | .error e => StoreRaised env w e w') w := by
  cases rewritten with
  | none => exact ⟨rfl, none, rfl, nofun, rfl⟩
  | some c =>
    refine wp_uuid4_bind trivial fun j w₁ hs₁ ht hj hj' => ?_
    refine wp_now_bind trivial fun now w₂ hs₂ ht₂ => ?_
    have hl : Later w w₂ := (ht.later rfl nofun).trans (ht₂.later rfl nofun)
    refine wp_repo ⟨⟨fun x hx => ?_, ?_⟩, fun id hid => ?_⟩ rfl
      (fun e w₃ _ hr => ⟨hr.prompts.trans hl.quiet.prompts, .after hl.log (.of_write hr id)⟩)
      fun _ w₃ _ hr =>
        ⟨hr.prompts.trans hl.quiet.prompts, some _, rfl, fun x hx => ?_, hl.rows ▸ hr.rows⟩
    · rw [hl.rows] at hx
      exact ⟨(hs.minted.rewrite x hx).ne env.uuid_injective hj, hnone x hx⟩
    · rw [hl.rows]
      exact hdecision
    · rw [List.mem_singleton.mp hid]
      exact ⟨j, hj'.trans_le ht₂.draws, rfl⟩
    · rw [← Option.some.inj hx]
      exact ⟨rfl, rfl⟩

theorem wp_saveKnowledge (hs : Sound env w)
    (hdecision : ∃ d ∈ w.rows.chatRouteDecisions, d.decisionId = decisionId)
    (hnone : ∀ x ∈ w.rows.chatKnowledgeSearches, x.decisionId ≠ decisionId)
    (knowledge : Option KnowledgeCapture) :
    wp (contract kind engine env (AnswerCall community))
      (service.saveKnowledge decisionId community knowledge)
      (fun r w' => w'.prompts = w.prompts ∧ match r with
        | .ok _ => ∃ row : Option ChatKnowledgeSearch, row.isSome = knowledge.isSome ∧
          (∀ x ∈ row, x.decisionId = decisionId ∧ x.communityId = community) ∧
          w'.rows = w.rows.putSearchOf row
        | .error e => StoreRaised env w e w') w := by
  cases knowledge with
  | none => exact ⟨rfl, none, rfl, nofun, rfl⟩
  | some c =>
    refine wp_uuid4_bind trivial fun j w₁ hs₁ ht hj hj' => ?_
    refine wp_now_bind trivial fun now w₂ hs₂ ht₂ => ?_
    have hl : Later w w₂ := (ht.later rfl nofun).trans (ht₂.later rfl nofun)
    refine wp_repo ⟨⟨fun x hx => ?_, ?_⟩, fun id hid => ?_⟩ rfl
      (fun e w₃ _ hr => ⟨hr.prompts.trans hl.quiet.prompts, .after hl.log (.of_write hr id)⟩)
      fun _ w₃ _ hr =>
        ⟨hr.prompts.trans hl.quiet.prompts, some _, rfl, fun x hx => ?_, hl.rows ▸ hr.rows⟩
    · rw [hl.rows] at hx
      exact ⟨(hs.minted.search x hx).ne env.uuid_injective hj, hnone x hx⟩
    · rw [hl.rows]
      exact hdecision
    · rw [List.mem_singleton.mp hid]
      exact ⟨j, hj'.trans_le ht₂.draws, rfl⟩
    · rw [← Option.some.inj hx]
      exact ⟨rfl, rfl⟩

end Deciding

/-- What a chat leaves : the rows of its route, one decision that names their query, and
the rows of the rewrite and the search its route made. -/
structure Chatted (env : Env) (service : RoutedChatService) (community question : String)
    (w w' : World (kind.backend engine).State) (res : RoutedChatResult)
    (routed : RoutedChatService.Routed) (w₁ : World (kind.backend engine).State)
    (d : ChatRouteDecision) (rewrite : Option ChatQueryRewrite)
    (search : Option ChatKnowledgeSearch) : Prop where
  route : RoutedEnd env service community question w res.effectiveRoute routed w₁
  answer : res.answer = routed.answer
  prompts : w'.prompts = w₁.prompts
  log : w₁.log <+: w'.log
  decisionId : d.decisionId = res.decisionId
  queryId : d.queryId = routed.queryId
  ofCommunity : d.communityId = community
  effective : d.effectiveRoute = res.effectiveRoute
  requested : d.requestedRoute = res.requestedRoute
  fresh : ∀ x ∈ w₁.rows.chatRouteDecisions, x.decisionId ≠ d.decisionId
  rewritten : rewrite.isSome = routed.rewrite.isSome ∧
    ∀ x ∈ rewrite, x.decisionId = d.decisionId ∧ x.communityId = community
  searched : search.isSome = routed.knowledge.isSome ∧
    ∀ x ∈ search, x.decisionId = d.decisionId ∧ x.communityId = community
  content : w.rows.SameContent w₁.rows
  rows : w'.rows = ((w₁.rows.putDecision d).putRewriteOf rewrite).putSearchOf search

/-- Where a chat may end. -/
def ChatEnd (env : Env) (service : RoutedChatService) (community question : String)
    (w : World (kind.backend engine).State) :
    Except Exn RoutedChatResult → World (kind.backend engine).State → Prop
  | .ok res, w' => ∃ routed w₁ d rewrite search,
    Chatted env service community question w w' res routed w₁ d rewrite search
  | .error e, w' => Fault env service.Ungraded community w w' e

/-- The query a route leaves is there. -/
theorem RoutedEnd.query {community question : String} {route : ChatRoute}
    {routed : RoutedChatService.Routed} {w₁ : World (kind.backend engine).State}
    (h : RoutedEnd env service community question w route routed w₁) :
    ∀ id ∈ routed.queryId, ∃ q ∈ w₁.rows.queries, q.queryId = id := by
  have htraced : ∀ {queryId : String} {fallback : FallbackMode} {found : RetrievedCandidates},
      Traced env community queryId fallback found w.rows w₁.rows →
      ∀ id ∈ some queryId, ∃ q ∈ w₁.rows.queries, q.queryId = id := by
    intro queryId fallback found ht id hid
    obtain ⟨q, hits, t, lo, hi, hq, hrows⟩ := ht.rows
    refine ⟨q, ?_, hq.query.1.trans (Option.some.inj hid)⟩
    rw [hrows]
    exact Table.mem_put_self
  cases h with
  | unavailable h => exact nofun
  | notesLookup h => exact htraced h.traced
  | modelOnly h => exact htraced h.traced
  | notesPlusModel h => exact htraced h.traced
  | notesPlusKnowledge hf h => exact htraced h.traced

theorem RoutedEnd.after {community question : String} {route : ChatRoute}
    {routed : RoutedChatService.Routed} {w₁ w₂ : World (kind.backend engine).State}
    (hq : Quiet w w₁) (h : RoutedEnd env service community question w₁ route routed w₂) :
    RoutedEnd env service community question w route routed w₂ := by
  cases h with
  | unavailable h => exact .unavailable (Fault.after hq h)
  | notesLookup h =>
    refine .notesLookup ⟨h.result, h.chunks, hq.rows ▸ h.candidates, ?_, hq.rows ▸ h.traced⟩
    rw [← hq.prompts]
    exact h.verdict.imp_right fun ⟨n, prompt, hn, hreply⟩ =>
      ⟨n, prompt, hq.log.length_le.trans hn, hreply⟩
  | modelOnly h =>
    obtain ⟨n, prompt, hn, hreply⟩ := h.verdict
    exact .modelOnly ⟨h.result, ⟨n, prompt, hq.log.length_le.trans hn, hq.prompts ▸ hreply⟩,
      hq.rows ▸ h.traced⟩
  | notesPlusModel h => exact .notesPlusModel (h.after hq)
  | notesPlusKnowledge hf h => exact .notesPlusKnowledge hf (h.after hq)

theorem RoutedChatService.knowledgeSource_of_effectiveRoute {requested : Option ChatRoute}
    (h : service.effectiveRoute requested = .notesPlusKnowledge) :
    service.knowledgeSource.isSome := by
  unfold effectiveRoute at h
  split at h
  · cases h
  · cases h
  · cases h
  · by_contra hnone
    rw [if_neg hnone] at h
    cases h
  · cases h

/-- A chat ends in an answer with its decision, or has a fault. -/
theorem wp_chat {message : InboundMessage} {subjectScope : Option String} (hs : Sound env w) :
    wp (contract kind engine env (AnswerCall message.communityId)) (service.chat message subjectScope)
      (ChatEnd env service message.communityId (PyText.strip message.payload) w) w := by
  unfold RoutedChatService.chat
  generalize PyText.strip message.payload = question
  dsimp only
  split
  · next h => exact Fault.noCommunity h
  refine wp_quiet_bind hs (wp_classify service.Ungraded message.communityId question)
    (fun e w' h => h) fun classified w₁ hs₁ hq₁ _ => ?_
  refine wp_seq hs₁ (wp_asking (wp_answerBy hs₁ RoutedChatService.knowledgeSource_of_effectiveRoute))
    (fun e w₂ _ h => Fault.after hq₁ h.1) fun routed w₂ hs₂ h => ?_
  obtain ⟨hroute, hasking⟩ := h
  have hcontent : w.rows.SameContent w₂.rows := hq₁.rows ▸ hasking.content
  have hlog : w.log <+: w₂.log := hq₁.log.trans hasking.log
  refine wp_uuid4_bind trivial fun j w₃ hs₃ ht₃ hj hj' => ?_
  refine wp_now_bind trivial fun now w₄ hs₄ ht₄ => ?_
  have hl : Later w₂ w₄ := (ht₃.later rfl nofun).trans (ht₄.later rfl nofun)
  have hfresh : ∀ x ∈ w₂.rows.chatRouteDecisions, x.decisionId ≠ env.uuid j := fun x hx =>
    (hs₂.minted.decision x hx).ne env.uuid_injective hj
  refine wp_repo_bind ⟨⟨hl.rows ▸ hfresh, ?_⟩, fun id hid => ?_⟩ rfl
    (fun e w₅ _ hr => Fault.store (.after (hlog.trans hl.log) (.of_write hr id)))
    fun _ w₅ hs₅ hr => ?_
  · rw [hl.rows]
    exact hroute.query
  · rw [List.mem_singleton.mp hid]
    exact ⟨j, hj'.trans_le ht₄.draws, rfl⟩
  obtain ⟨d, hd, hrows₅⟩ : ∃ d : ChatRouteDecision, d =
      { decisionId := env.uuid j, communityId := message.communityId, questionText := question
        requestedRoute := classified.requested
        effectiveRoute := service.effectiveRoute classified.requested
        classifierModelName := service.classifierModelName
        classifierRawOutput := classified.rawOutput
        classifierLatencyMs := classified.latencyMs, queryId := routed.queryId, createdAt := now } ∧
      w₅.rows = w₂.rows.putDecision d :=
    ⟨_, rfl, by rw [hr.rows, hl.rows]; rfl⟩
  have hlog₅ : w.log <+: w₅.log := (hlog.trans hl.log).trans hr.log
  have hprompts₅ : w₅.prompts = w₂.prompts := hr.prompts.trans hl.quiet.prompts
  have hdecision : ∃ d ∈ w₅.rows.chatRouteDecisions, d.decisionId = env.uuid j :=
    ⟨d, hrows₅ ▸ Table.mem_put_self, hd ▸ rfl⟩
  have hrewrites : ∀ x ∈ w₅.rows.chatQueryRewrites, x.decisionId ≠ env.uuid j := by
    intro x hx he
    rw [hrows₅] at hx
    obtain ⟨d, hd, hid⟩ := hs₂.linked.rewrite_decision x hx
    exact hfresh d hd (hid.trans he)
  have hsearches : ∀ x ∈ w₅.rows.chatKnowledgeSearches, x.decisionId ≠ env.uuid j := by
    intro x hx he
    rw [hrows₅] at hx
    obtain ⟨d, hd, hid⟩ := hs₂.linked.search_decision x hx
    exact hfresh d hd (hid.trans he)
  refine wp_seq hs₅ (wp_asking (wp_saveRewrite hs₅ hdecision hrewrites routed.rewrite))
    (fun e w₆ _ h => Fault.store (h.1.2.after hlog₅)) fun _ w₆ hs₆ h => ?_
  obtain ⟨⟨hprompts₆, rewrite, hrewrite, hrewrite', hrows₆⟩, hasking₆⟩ := h
  have hdecision₆ : w₆.rows.chatRouteDecisions = w₅.rows.chatRouteDecisions := by
    rw [hrows₆]
    cases rewrite <;> rfl
  have hsearches₆ : w₆.rows.chatKnowledgeSearches = w₅.rows.chatKnowledgeSearches := by
    rw [hrows₆]
    cases rewrite <;> rfl
  refine wp_seq hs₆ (wp_log (wp_saveKnowledge hs₆ (hdecision₆ ▸ hdecision) (hsearches₆ ▸ hsearches)
      routed.knowledge))
    (fun e w₇ _ h => Fault.store (h.1.2.after (hlog₅.trans hasking₆.log)))
    fun _ w₇ _ h => ?_
  obtain ⟨⟨hprompts₇, search, hsearch, hsearch', hrows₇⟩, hlog₇⟩ := h
  rw [hrows₅] at hrows₆
  subst hd
  exact ⟨routed, w₂, _, rewrite, search,
    { route := hroute.after hq₁, answer := rfl, decisionId := rfl, queryId := rfl
      ofCommunity := rfl, effective := rfl, requested := rfl, fresh := hfresh
      prompts := hprompts₇.trans (hprompts₆.trans hprompts₅)
      log := ((hl.log.trans hr.log).trans hasking₆.log).trans hlog₇
      rewritten := ⟨hrewrite, hrewrite'⟩, searched := ⟨hsearch, hsearch'⟩
      content := hcontent, rows := hrows₆ ▸ hrows₇ }⟩

end DiaryMemory
