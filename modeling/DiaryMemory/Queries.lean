import DiaryMemory.Normalizing
import DiaryMemory.Rendering

/-!
# The queries that are embedded

A chat embeds at most one query. It is the normal form of the question or of the
rewritten question (`Asks`), and the two are guarded at different stages : the lookup
answers an empty query without embedding it, the rewrite step falls back to the question,
and the question it falls back to is not looked at again. `queryContract` keeps what was
embedded so far beside the number of calls made, and every procedure is followed against
it.
-/

namespace DiaryMemory

open PyText Trimming

/-- The query a call embeds. -/
def Call.queryText : Call → Option String
  | .sys (.embedQuery text) => some text
  | _ => none

/-- The queries embedded so far. -/
def World.queryTexts {S : Type} (w : World S) : List String :=
  w.log.filterMap fun e => e.call.queryText

/-- The queries embedded from `w` on. -/
def World.newQueries {S : Type} (w v : World S) : List String :=
  v.queryTexts.drop w.queryTexts.length

/-- A query as `retrieve` expects it. -/
def IsNormalized (text : String) : Prop := text ≠ "" ∧ normalizeQuery text = text

/-- A text with a normal form that is not empty : it has other characters than white space and
terminal punctuation, and no layered tail. -/
structure Askable (src : String) : Prop where
  content : ∃ c ∈ src.toList, isSpace c = false ∧ isTerminal c = false
  flat : ¬ LayeredTail (strip src)

/-! ## Normal forms -/

theorem strip_strip (text : String) : strip (strip text) = strip text := by
  rw [strip_eq_self_iff, toList_strip]
  exact trimmed_trim

theorem normalizeQuery_strip (payload : String) :
    normalizeQuery (strip payload) = normalizeQuery payload := by
  rw [normalizeQuery, strip_strip, normalizeQuery]

/-- A normal form that is its own normal form does not end in punctuation. -/
theorem last_of_normalizeQuery_self {text : String} (h : normalizeQuery text = text) :
    ∀ c ∈ text.toList.getLast?, isTerminal c = false := by
  intro c hc
  by_contra hterm
  have hpass := (toList_normalizeQuery text).symm
  rw [h, strip_eq_self_iff.mpr (h ▸ normalizeQuery_trimmed text)] at hpass
  obtain ⟨x, hx⟩ : ∃ x, text.toList = x ++ [c] := List.getLast?_eq_some_iff.mp hc
  -- dropping the punctuation would have made the text shorter
  have hlength := congrArg List.length hpass
  rw [hx, List.rdropWhile_concat_pos _ _ _ (eq_true_of_ne_false hterm)] at hlength
  have hshort := ((List.rdropWhile_prefix isSpace (x.rdropWhile isTerminal)).trans
    (List.rdropWhile_prefix isTerminal x)).length_le
  rw [hlength, List.length_append, List.length_singleton] at hshort
  omega

theorem normalizeQuery_normalizeQuery_iff (src : String) :
    normalizeQuery (normalizeQuery src) = normalizeQuery src ↔ ¬ LayeredTail (strip src) := by
  rw [← last_normalizeQuery_iff]
  exact ⟨last_of_normalizeQuery_self, normalizeQuery_again⟩

/-- The texts whose normal form is fit to be embedded. -/
theorem isNormalized_iff (src : String) : IsNormalized (normalizeQuery src) ↔ Askable src := by
  rw [IsNormalized, normalizeQuery_normalizeQuery_iff]
  constructor
  · intro h
    refine ⟨?_, h.2⟩
    have hcontent := mt (normalizeQuery_empty_iff ((last_normalizeQuery_iff src).mpr h.2)).mpr h.1
    push Not at hcontent
    simpa using hcontent
  · intro h
    refine ⟨fun hempty => ?_, h.flat⟩
    obtain ⟨c, hc, hspace, hterm⟩ := h.content
    have := (normalizeQuery_empty_iff ((last_normalizeQuery_iff src).mpr h.flat)).mp hempty c hc
    simp [hspace, hterm] at this

/-! ## The contract -/

/-- The number of calls made, and the queries embedded. -/
structure Heard where
  tick : Nat
  texts : List String

def World.heard {S : Type} (w : World S) : Heard := ⟨w.tick, w.queryTexts⟩

/-- One more call. -/
def Heard.after (t : Heard) (c : Call) : Heard := ⟨t.tick + 1, t.texts ++ c.queryText.toList⟩

/-- What the clock, the classifier and the rewriter reply at a moment. -/
def Reported (env : Env) (n : Nat) : (c : Call) → Reply c → Prop
  | .sys .now, r => r = env.now n
  | .sys (.classify question), r => r = env.classify n question
  | .sys (.rewrite question today), r => r = env.rewrite n question today
  | _, _ => True

/-- What a call does to what was heard. -/
def queryContract (env : Env) : Contract Call Reply Heard where
  pre _ _ := True
  post c t r t' := t' = t.after c ∧ Reported env t.tick c r

theorem queryContract_meets (B : Backend) (env : Env) :
    (queryContract env).Meets (serve B env) World.heard fun _ => True := by
  intro c w _ _
  refine ⟨trivial, ?_, ?_⟩
  · have hlog : (serve B env c w).2.log =
        w.log ++ [⟨B.tables w.store, c, (serve B env c w).1 |> raised c⟩] := by
      cases c with
      | repo c =>
        simp only [serve, respond, serveRepo]
        cases env.storeFails w.tick c <;> rfl
      | sys c => cases c <;> rfl
    simp only [World.heard, Heard.after, World.tick, World.queryTexts, hlog]
    cases h : c.queryText <;> simp [h]
  · cases c with
    | repo c => trivial
    | sys c => cases c <;> trivial

/-- What a procedure does whatever it is run on. -/
theorem heard_exec {α : Type} {B : Backend} {env : Env} {p : Proc α} {w : World B.State}
    {Q : Except Exn α → Heard → Prop} (h : wp (queryContract env) p Q w.heard) :
    Q (p.exec B env w).1 (p.exec B env w).2.heard :=
  (Prog.run_of_wp (queryContract_meets B env) p.run trivial h).2

section Following

variable {α β : Type} {env : Env} {t : Heard}

theorem wp_heard_ask {c : SystemCall} {f : SystemReply c → Proc β}
    {Q : Except Exn β → Heard → Prop}
    (h : ∀ r, Reported env t.tick (.sys c) r →
      wp (queryContract env) (f r) Q (t.after (.sys c))) :
    wp (queryContract env) (ask (Proc.sys c) >>= f) Q t := by
  rw [wp_bind, wp_ask]
  refine ⟨trivial, ?_⟩
  rintro r _ ⟨rfl, hr⟩
  exact h r hr

/-! ## Silent procedures -/

/-- The procedure embeds no query. -/
def Silent (env : Env) (p : Proc α) : Prop :=
  ∀ t, wp (queryContract env) p (fun _ t' => t'.texts = t.texts) t

theorem Silent.pure (a : α) : Silent env (pure a : Proc α) := fun _ => rfl

theorem Silent.throw (e : Exn) : Silent env (throw e : Proc α) := fun _ => rfl

theorem Silent.bind {p : Proc α} {f : α → Proc β} (hp : Silent env p) (hf : ∀ a, Silent env (f a)) :
    Silent env (p >>= f) := by
  intro t
  refine (wp_bind _ _ _ t).mpr (wp_imp ?_ (hp t))
  rintro (e | a) t' ht
  · exact ht
  · exact wp_imp (fun _ _ h => h.trans ht) (hf a t')

theorem Silent.capture {p : Proc α} (hp : Silent env p) : Silent env (capture p) :=
  fun t => (wp_capture _ _ t).mpr (hp t)

theorem Silent.repo (c : RepoCall) : Silent env (Proc.repo c) :=
  fun t => ⟨trivial, fun _ _ h => by rw [h.1]; exact List.append_nil _⟩

theorem Silent.ask {c : SystemCall} (hc : (Call.sys c).queryText = none) :
    Silent env (ask (Proc.sys c)) := by
  refine fun t => (wp_ask _ _ t).mpr ⟨trivial, fun _ _ h => ?_⟩
  rw [h.1]
  change t.texts ++ _ = t.texts
  rw [hc, Option.toList_none, List.append_nil]

theorem Silent.complete (prompt : AnswerPrompt) : Silent env (Proc.complete prompt) :=
  fun t => ⟨trivial, fun _ _ h => by rw [h.1]; exact List.append_nil _⟩

theorem Silent.rewriteOutward (question : String) (context : List String) :
    Silent env (Proc.rewriteOutward question context) :=
  fun t => ⟨trivial, fun _ _ h => by rw [h.1]; exact List.append_nil _⟩

theorem Silent.search (query : String) : Silent env (Proc.search query) :=
  fun t => ⟨trivial, fun _ _ h => by rw [h.1]; exact List.append_nil _⟩

theorem Silent.ofExcept (r : Except Exn α) : Silent env (Proc.ofExcept r) := by
  cases r with
  | error e => exact .throw e
  | ok a => exact .pure a

theorem silent_legHits (queryId : String) (leg : RetrievalLeg) (modelName : String)
    (createdAt : DateTime) : ∀ (scored : List (EventChunk × ℚ)) (rank : Nat),
      Silent env (legHits queryId leg modelName createdAt rank scored)
  | [], _ => .pure _
  | _ :: scored, rank => (Silent.ask rfl).bind fun _ =>
    (silent_legHits queryId leg modelName createdAt scored (rank + 1)).bind fun _ => .pure _

theorem silent_buildRetrievalHits (queryId modelName : String) (createdAt : DateTime)
    (candidates : RetrievedCandidates) :
    Silent env (buildRetrievalHits queryId modelName createdAt candidates) :=
  (silent_legHits _ _ _ _ _ _).bind fun _ => (silent_legHits _ _ _ _ _ _).bind fun _ =>
    (silent_legHits _ _ _ _ _ _).bind fun _ => .pure _

theorem silent_saveQueryAndHits (query : Query) (modelName : String)
    (candidates : RetrievedCandidates) :
    Silent env (QueryService.saveQueryAndHits query modelName candidates) := by
  refine (Silent.repo _).bind fun _ => (silent_buildRetrievalHits _ _ _ _).bind fun hits => ?_
  split
  · exact .pure _
  · exact .repo _

theorem silent_finalize (query : Query) (candidates : RetrievedCandidates)
    (context : AnswerContext) (graded : Graded) :
    Silent env (QueryService.finalize query candidates context graded) := by
  refine (silent_saveQueryAndHits _ _ _).bind fun _ => Silent.bind (.ask rfl) fun id =>
    Silent.bind (.ask rfl) fun now => Silent.bind (.repo _) fun _ => .pure _

theorem silent_generate (service : QueryService) (query : Query) (candidates : RetrievedCandidates) :
    Silent env (service.generate query candidates) :=
  (Silent.ofExcept _).bind fun _ => (Silent.complete _).capture.bind fun _ =>
    (Silent.ofExcept _).bind fun _ => silent_finalize _ _ _ _

variable {service : RoutedChatService}

theorem silent_finishMixed (query : Query) (candidates : RetrievedCandidates)
    (context : AnswerContext) (promptVersion : String) (g : Generation) :
    Silent env (service.finishMixed query candidates context promptVersion g) :=
  (silent_saveQueryAndHits _ _ _).bind fun _ => (Silent.ask rfl).bind fun _ =>
    (Silent.repo _).bind fun _ => .pure _

theorem silent_rewriteOutward (question : String) (notesContext : List String) :
    Silent env (service.rewriteOutward question notesContext) := by
  unfold RoutedChatService.rewriteOutward
  split
  · exact .pure _
  refine (Silent.rewriteOutward _ _).capture.bind fun r => ?_
  split <;> first | exact .pure _ | exact .throw _

theorem silent_searchKnowledge (query : String) :
    Silent env (RoutedChatService.searchKnowledge query) := by
  refine (Silent.search _).capture.bind fun r => ?_
  split <;> first | exact .pure _ | exact .throw _

theorem silent_answerModelOnly (message : InboundMessage) (question : String) :
    Silent env (service.answerModelOnly message question) :=
  (Silent.ask rfl).bind fun _ => (Silent.ask rfl).bind fun _ => (Silent.complete _).capture.bind
    fun _ => (Silent.ofExcept _).bind fun _ => (Silent.repo _).bind fun _ => (Silent.ask rfl).bind
      fun _ => (Silent.repo _).bind fun _ => .pure _

theorem silent_saveRewrite (decisionId community : String) :
    ∀ c, Silent env (RoutedChatService.saveRewrite decisionId community c)
  | none => .pure _
  | some _ => (Silent.ask rfl).bind fun _ => (Silent.ask rfl).bind fun _ => .repo _

theorem silent_saveKnowledge (decisionId community : String) :
    ∀ c, Silent env (service.saveKnowledge decisionId community c)
  | none => .pure _
  | some _ => (Silent.ask rfl).bind fun _ => (Silent.ask rfl).bind fun _ => .repo _

/-! ## What is embedded -/

/-- The normal forms of exactly the texts of `A` were embedded. -/
def Queried (A : String → Prop) (t t' : Heard) : Prop :=
  ∃ srcs : List String, t'.texts = t.texts ++ srcs.map normalizeQuery ∧ ∀ src, src ∈ srcs ↔ A src

theorem Queried.none {A : String → Prop} {t t' : Heard} (h : t'.texts = t.texts)
    (hA : ∀ src, ¬ A src) : Queried A t t' :=
  ⟨[], by rw [h, List.map_nil, List.append_nil], fun src => by simp [hA src]⟩

theorem Queried.after {A : String → Prop} {t t₁ t' : Heard} (h : t₁.texts = t.texts)
    (hq : Queried A t₁ t') : Queried A t t' := by
  rwa [Queried, ← h]

theorem Queried.before {A : String → Prop} {t t₁ t' : Heard} (hq : Queried A t t₁)
    (h : t'.texts = t₁.texts) : Queried A t t' := by
  rwa [Queried, h]

theorem Queried.congr {A A' : String → Prop} {t t' : Heard} (hq : Queried A t t')
    (h : ∀ src, A src ↔ A' src) : Queried A' t t' := by
  obtain ⟨srcs, htexts, hsrcs⟩ := hq
  exact ⟨srcs, htexts, fun src => (hsrcs src).trans (h src)⟩

/-- What is asked, then a silent part. -/
theorem wp_then_silent {p : Proc α} {f : α → Proc β} {A : String → Prop}
    {t₀ : Heard} (hp : wp (queryContract env) p (fun _ t' => Queried A t₀ t') t)
    (hf : ∀ a, Silent env (f a)) :
    wp (queryContract env) (p >>= f) (fun _ t' => Queried A t₀ t') t := by
  refine (wp_bind _ _ _ t).mpr (wp_imp ?_ hp)
  rintro (e | a) t' h
  · exact h
  · exact wp_imp (fun _ _ ht => h.before ht) (hf a t')

theorem wp_retrieve_heard (query : QueryService) {community : String} (hcommunity : community ≠ "")
    (text : String) (dateRange : Option DateRange) (subjectScope : Option String) :
    wp (queryContract env) (query.retrieve community text dateRange subjectScope)
      (fun _ t' => t'.texts = t.texts ++ [text]) t := by
  unfold QueryService.retrieve
  rw [if_neg hcommunity]
  refine (wp_bind _ _ _ t).mpr ⟨trivial, ?_⟩
  rintro r t' ⟨rfl, -⟩
  rcases r with e | _ | ⟨v, vs⟩
  · exact rfl
  · exact rfl
  · dsimp only [onValue]
    exact Silent.bind (.repo _) (fun _ => (Silent.repo _).bind fun _ => (Silent.ofExcept _).bind
      fun _ => .pure _) _

/-- The lookup embeds its question unless nothing is left of it. -/
theorem wp_answer_heard (query : QueryService) {message : InboundMessage} {question : String}
    (hquestion : normalizeQuery question = normalizeQuery message.payload)
    (dateRange : Option DateRange) (subjectScope : Option String) :
    wp (queryContract env) (query.answer message dateRange subjectScope)
      (fun _ t' => Queried (fun src => message.communityId ≠ "" ∧ normalizeQuery question ≠ "" ∧
        src = question) t t') t := by
  unfold QueryService.answer
  by_cases hcommunity : message.communityId = ""
  · rw [if_pos hcommunity]
    exact .none rfl fun _ h => h.1 hcommunity
  rw [if_neg hcommunity]
  refine wp_heard_ask fun now _ => wp_heard_ask fun id _ => ?_
  have hquiet : ((t.after (.sys .now)).after (.sys .uuid4)).texts = t.texts := by
    simp [Heard.after, Call.queryText]
  generalize (t.after (.sys .now)).after (.sys .uuid4) = t₁ at hquiet ⊢
  have hasked : ∀ t', t'.texts = t₁.texts ++ [normalizeQuery question] →
      normalizeQuery question ≠ "" → Queried (fun src => message.communityId ≠ "" ∧
        normalizeQuery question ≠ "" ∧ src = question) t t' := fun t' h hne =>
    ⟨[question], by rw [h, hquiet, List.map_singleton], fun src => by simp [hcommunity, hne]⟩
  dsimp only
  rw [← hquestion]
  generalize normalizeQuery question = text at hasked ⊢
  unfold QueryService.answerNew
  dsimp only
  split
  · next hempty =>
    exact wp_imp (fun _ _ h => .none (h.trans hquiet) fun _ h => h.2.1 hempty)
      (silent_finalize _ _ _ _ _)
  · next hne =>
    refine wp_then_silent (wp_imp (fun _ t' h => hasked t' h hne)
      (wp_retrieve_heard query hcommunity text dateRange subjectScope)) fun candidates => ?_
    split
    · exact silent_finalize _ _ _ _
    · exact silent_generate _ _ _

/-! ## The rewrite step -/

/-- The text whose normal form a mixed route retrieves with : the rewritten question, or the
question itself where there is no rewriter, its declared failure, or an empty rewrite. -/
inductive MixedAsks (rewriter : Option String) (question : String)
    (reply : Except Exn QueryRewrite) : String → Prop
  | rewritten {r : QueryRewrite} : rewriter.isSome → reply = .ok r →
    normalizeQuery r.retrievalQuery ≠ "" → MixedAsks rewriter question reply r.retrievalQuery
  | emptied {r : QueryRewrite} : rewriter.isSome → reply = .ok r →
    normalizeQuery r.retrievalQuery = "" → MixedAsks rewriter question reply question
  | unwired : rewriter = none → MixedAsks rewriter question reply question
  | unusable {raw : String} : reply = .error (.providerOutput .rewriter raw) →
    MixedAsks rewriter question reply question
  | unavailable : reply = .error (.providerUnavailable .rewriter) →
    MixedAsks rewriter question reply question

/-- What the rewrite step decides. -/
def RewriteHeard (rewriter : Option String) (question : String) (reply : Except Exn QueryRewrite) :
    Except Exn RewriteCapture → Prop
  | .ok c => ∃ src, RoutedChatService.retrievalQuery c question = normalizeQuery src ∧
    ∀ s, MixedAsks rewriter question reply s ↔ s = src
  | .error _ => ∀ s, ¬ MixedAsks rewriter question reply s

theorem wp_rewrite_heard (question : String) :
    wp (queryContract env) (service.rewrite question)
      (fun r t' => t'.texts = t.texts ∧ RewriteHeard service.rewriter question
        (env.rewrite (t.tick + 1) question (env.now t.tick).date) r) t := by
  unfold RoutedChatService.rewrite
  cases hrewriter : service.rewriter with
  | none =>
    refine ⟨rfl, question, rfl, fun s => ⟨fun h => ?_, fun h => h ▸ .unwired rfl⟩⟩
    cases h <;> first | rfl | contradiction
  | some modelName =>
    refine wp_heard_ask fun now hnow => ?_
    obtain rfl : now = env.now t.tick := hnow
    refine (wp_bind _ _ _ _).mpr ((wp_capture _ _ _).mpr ⟨trivial, ?_⟩)
    rintro r t' ⟨rfl, hr⟩
    obtain rfl : r = env.rewrite (t.tick + 1) question (env.now t.tick).date := hr
    have htexts : ((t.after (.sys .now)).after
        (.sys (.rewrite question (env.now t.tick).date))).texts = t.texts := by
      simp [Heard.after, Call.queryText]
    generalize env.rewrite (t.tick + 1) question (env.now t.tick).date = reply
    refine (Prog.wp_ret _ _ _).mpr ?_
    simp only [onValue]
    split
    · refine ⟨htexts, question, rfl, fun s => ⟨fun h => ?_, fun h => h ▸ .unusable rfl⟩⟩
      cases h <;> first | rfl | contradiction
    · refine ⟨htexts, question, rfl, fun s => ⟨fun h => ?_, fun h => h ▸ .unavailable rfl⟩⟩
      cases h <;> first | rfl | contradiction
    · next e hraw hdown =>
      refine ⟨htexts, fun s h => ?_⟩
      cases h with
      | rewritten _ hr => cases hr
      | emptied _ hr => cases hr
      | unwired hnone => cases hnone
      | unusable hr => cases hr; exact hraw _ rfl
      | unavailable hr => cases hr; exact hdown rfl
    · next rewrite =>
      generalize hquery : normalizeQuery rewrite.retrievalQuery = text
      split
      · next hempty =>
        refine ⟨htexts, question, rfl, fun s => ⟨fun h => ?_, fun h => ?_⟩⟩
        · cases h with
          | rewritten _ hr hne => cases hr; exact absurd (hquery.trans hempty) hne
          | emptied => rfl
          | unwired => rfl
          | unusable hr => cases hr
          | unavailable hr => cases hr
        · exact h ▸ .emptied rfl rfl (hquery.trans hempty)
      · next hne =>
        refine ⟨htexts, rewrite.retrievalQuery, hquery.symm, fun s => ⟨fun h => ?_, fun h => ?_⟩⟩
        · cases h with
          | rewritten _ hr => cases hr; rfl
          | emptied _ hr hempty => cases hr; exact absurd (hquery.symm.trans hempty) hne
          | unwired hnone => cases hnone
          | unusable hr => cases hr
          | unavailable hr => cases hr
        · exact h ▸ .rewritten rfl rfl (hquery ▸ hne)

/-- The retrieval of a mixed route, after the clock and one identifier. -/
theorem wp_mixed_heard {community question : String} {subjectScope : Option String}
    (hcommunity : community ≠ "") {f : DateTime → String → RewriteCapture → RetrievedCandidates → Proc α}
    (hf : ∀ now id c candidates, Silent env (f now id c candidates)) :
    wp (queryContract env)
      (do
        let createdAt ← Proc.now
        let queryId ← Proc.uuid4
        let rewritten ← service.rewrite question
        let candidates ← service.query.retrieve community
          (RoutedChatService.retrievalQuery rewritten question) rewritten.dateRange subjectScope
        f createdAt queryId rewritten candidates)
      (fun _ t' => Queried (MixedAsks service.rewriter question
        (env.rewrite (t.tick + 3) question (env.now (t.tick + 2)).date)) t t') t := by
  refine wp_heard_ask fun now _ => wp_heard_ask fun id _ => (wp_bind _ _ _ _).mpr ?_
  refine wp_imp ?_ (wp_rewrite_heard question)
  have hquiet : ((t.after (.sys .now)).after (.sys .uuid4)).texts = t.texts := by
    simp [Heard.after, Call.queryText]
  have htick : ((t.after (.sys .now)).after (.sys .uuid4)).tick = t.tick + 2 := rfl
  rw [htick, hquiet]
  rintro (e | c) t' ⟨htexts, hheard⟩
  · exact .none htexts hheard
  obtain ⟨src, hquery, hasks⟩ := hheard
  refine wp_then_silent (wp_imp (fun _ t'' h => ?_)
    (wp_retrieve_heard service.query hcommunity _ c.dateRange subjectScope)) fun candidates =>
      hf now id c candidates
  exact ⟨[src], by rw [h, htexts, hquery, List.map_singleton], fun s => by simp [hasks]⟩

/-! ## The chat -/

/-- The route a chat takes; an undeclared failure of the classifier escapes. -/
def takenRoute (service : RoutedChatService) (question : String)
    (verdict : Except Exn RouteClassification) : Option ChatRoute :=
  if question = "" then some .notesLookup
  else match verdict with
    | .ok c => some (service.effectiveRoute (some c.route))
    | .error (.providerOutput .classifier _) => some .notesLookup
    | .error (.providerUnavailable .classifier) => some .notesLookup
    | .error _ => none

/-- The text whose normal form a chat embeds. -/
inductive Asks (service : RoutedChatService) (question : String)
    (verdict : Except Exn RouteClassification) (reply : Except Exn QueryRewrite) : String → Prop
  | lookup : takenRoute service question verdict = some .notesLookup →
    normalizeQuery question ≠ "" → Asks service question verdict reply question
  | mixed {route : ChatRoute} {src : String} : takenRoute service question verdict = some route →
    route = .notesPlusModel ∨ route = .notesPlusKnowledge →
    MixedAsks service.rewriter question reply src → Asks service question verdict reply src

theorem asks_iff {service : RoutedChatService} {question src : String}
    {verdict : Except Exn RouteClassification} {reply : Except Exn QueryRewrite} {route : ChatRoute}
    (htaken : takenRoute service question verdict = some route) :
    Asks service question verdict reply src ↔
      (route = .notesLookup ∧ normalizeQuery question ≠ "" ∧ src = question) ∨
      ((route = .notesPlusModel ∨ route = .notesPlusKnowledge) ∧
        MixedAsks service.rewriter question reply src) := by
  constructor
  · intro h
    cases h with
    | lookup hroute hne =>
      rw [htaken] at hroute
      exact .inl ⟨Option.some.inj hroute, hne, rfl⟩
    | mixed hroute hmixed hsrc =>
      rw [htaken] at hroute
      cases hroute
      exact .inr ⟨hmixed, hsrc⟩
  · rintro (⟨rfl, hne, rfl⟩ | ⟨hmixed, hsrc⟩)
    · exact .lookup htaken hne
    · exact .mixed htaken hmixed hsrc

theorem wp_classify_heard (service : RoutedChatService) (question : String) :
    wp (queryContract env) (RoutedChatService.classify question)
      (fun r t' => t'.texts = t.texts ∧ (question ≠ "" → t'.tick = t.tick + 1) ∧
        takenRoute service question (env.classify t.tick question) =
          r.toOption.map fun c => service.effectiveRoute c.requested) t := by
  unfold RoutedChatService.classify takenRoute
  by_cases hempty : question = ""
  · rw [if_pos hempty, if_pos hempty]
    exact ⟨rfl, fun h => absurd hempty h, rfl⟩
  rw [if_neg hempty, if_neg hempty]
  refine (wp_bind _ _ _ _).mpr ((wp_capture _ _ _).mpr ⟨trivial, ?_⟩)
  rintro r t' ⟨rfl, hr⟩
  obtain rfl : r = env.classify t.tick question := hr
  have htexts : (t.after (.sys (.classify question))).texts = t.texts := by
    simp [Heard.after, Call.queryText]
  generalize env.classify t.tick question = verdict
  refine (Prog.wp_ret _ _ _).mpr ?_
  simp only [onValue]
  split
  · exact ⟨htexts, fun _ => rfl, rfl⟩
  · exact ⟨htexts, fun _ => rfl, rfl⟩
  · next e hraw hdown =>
    refine ⟨htexts, fun _ => rfl, ?_⟩
    split <;> simp_all [Except.toOption]
  · exact ⟨htexts, fun _ => rfl, rfl⟩

theorem wp_orUnavailable_heard {question : String} {p : Proc RoutedChatService.Routed}
    {A : String → Prop} {t₀ : Heard}
    (h : wp (queryContract env) p (fun _ t' => Queried A t₀ t') t) :
    wp (queryContract env) (RoutedChatService.orUnavailable question p)
      (fun _ t' => Queried A t₀ t') t := by
  refine wp_then_silent ((wp_capture _ _ _).mpr h) fun r => ?_
  split <;> first | exact .pure _ | exact .throw _

/-- What each route embeds. -/
theorem wp_answerBy_heard {message : InboundMessage} {question : String}
    (hcommunity : message.communityId ≠ "")
    (hquestion : normalizeQuery question = normalizeQuery message.payload)
    (subjectScope : Option String) (route : ChatRoute)
    (hknowledge : route = .notesPlusKnowledge → service.knowledgeSource ≠ none) :
    wp (queryContract env) (service.answerBy message question subjectScope route)
      (fun _ t' => Queried (fun src =>
        (route = .notesLookup ∧ normalizeQuery question ≠ "" ∧ src = question) ∨
        ((route = .notesPlusModel ∨ route = .notesPlusKnowledge) ∧
          MixedAsks service.rewriter question
            (env.rewrite (t.tick + 3) question (env.now (t.tick + 2)).date) src)) t t') t := by
  cases route with
  | notesLookup =>
    refine wp_orUnavailable_heard (wp_then_silent (wp_imp (fun _ _ h => h.congr fun src => ?_)
      (wp_answer_heard service.query hquestion none subjectScope)) fun _ => .pure _)
    simp [hcommunity]
  | modelOnly =>
    refine wp_imp (fun _ _ h => .none h (by simp)) (Silent.bind ?_ (fun _ => .pure _) t)
    exact silent_answerModelOnly message question
  | notesPlusModel =>
    refine wp_orUnavailable_heard (wp_then_silent ?_ fun _ => .pure _)
    refine wp_imp (fun _ _ h => h.congr fun src => ?_) (wp_mixed_heard hcommunity fun _ _ _ _ => ?_)
    · exact (Silent.ofExcept _).bind fun _ => (Silent.complete _).capture.bind fun _ =>
        (Silent.ofExcept _).bind fun _ => (silent_finishMixed _ _ _ _ _).bind fun _ => .pure _
    · simp
  | notesPlusKnowledge =>
    refine wp_orUnavailable_heard (wp_then_silent ?_ fun _ => .pure _)
    unfold RoutedChatService.answerNotesPlusKnowledge
    rw [if_neg (hknowledge rfl)]
    refine wp_imp (fun _ _ h => h.congr fun src => ?_) (wp_mixed_heard hcommunity fun _ _ _ _ => ?_)
    · exact (silent_rewriteOutward _ _).bind fun _ => (silent_searchKnowledge _).bind fun _ =>
        (Silent.ofExcept _).bind fun _ => (Silent.complete _).capture.bind fun _ =>
        (Silent.ofExcept _).bind fun _ => (silent_finishMixed _ _ _ _ _).bind fun _ => .pure _
    · simp

theorem wp_chat_heard (message : InboundMessage) (subjectScope : Option String) :
    wp (queryContract env) (service.chat message subjectScope)
      (fun _ t' => Queried (fun src => message.communityId ≠ "" ∧
        Asks service (strip message.payload) (env.classify t.tick (strip message.payload))
          (env.rewrite (t.tick + 4) (strip message.payload) (env.now (t.tick + 3)).date) src) t t')
      t := by
  unfold RoutedChatService.chat
  have hquestion : normalizeQuery (strip message.payload) = normalizeQuery message.payload :=
    normalizeQuery_strip message.payload
  generalize strip message.payload = question at hquestion ⊢
  dsimp only
  by_cases hcommunity : message.communityId = ""
  · rw [if_pos hcommunity]
    exact .none rfl fun _ h => h.1 hcommunity
  rw [if_neg hcommunity]
  refine (wp_bind _ _ _ t).mpr (wp_imp ?_ (wp_classify_heard service question))
  rintro (e | classified) t' ⟨htexts, htick, htaken⟩
  · refine .none htexts fun src h => ?_
    cases h.2 <;> simp_all [Except.toOption]
  generalize env.classify t.tick question = verdict at htaken ⊢
  have htaken : takenRoute service question verdict =
    some (service.effectiveRoute classified.requested) := htaken
  refine wp_then_silent (wp_imp (fun _ _ h => (h.congr fun src => ?_).after htexts)
    (wp_answerBy_heard hcommunity hquestion subjectScope _ ?_)) fun routed => ?_
  · intro hroute hnone
    generalize classified.requested = requested at hroute
    rcases requested with _ | route
    · cases hroute
    · cases route <;> simp [RoutedChatService.effectiveRoute, hnone] at hroute
  · exact (Silent.ask rfl).bind fun _ => (Silent.ask rfl).bind fun _ => (Silent.repo _).bind
      fun _ => (silent_saveRewrite _ _ _).bind fun _ => (silent_saveKnowledge _ _ _).bind
        fun _ => .pure _
  · rw [asks_iff htaken]
    simp only [ne_eq, hcommunity, not_false_eq_true, true_and]
    refine or_congr_right (and_congr_right fun hmixed => ?_)
    have hne : question ≠ "" := by
      rintro rfl
      unfold takenRoute at htaken
      rw [if_pos rfl, Option.some.injEq] at htaken
      rw [← htaken] at hmixed
      exact hmixed.elim nofun nofun
    rw [htick hne]

end Following

/-! ## What every chat embeds -/

theorem newQueries_of_queried {B : Backend} {A : String → Prop} {w v : World B.State}
    (h : Queried A w.heard v.heard) :
    (∀ text ∈ w.newQueries v, IsNormalized text) ↔ ∀ src, A src → Askable src := by
  obtain ⟨srcs, htexts, hsrcs⟩ := h
  have hnew : w.newQueries v = srcs.map normalizeQuery := by
    rw [World.newQueries, show v.queryTexts = _ from htexts]
    exact List.drop_left
  rw [hnew, List.forall_mem_map]
  exact forall_congr' fun src => imp_congr (hsrcs src) (isNormalized_iff src)

/-- A chat, and a lookup, embed only normalized queries exactly when the text they derive the
query from is askable. The classifier is the first call of a chat and the rewriter the
fifth. -/
theorem queries_normalized_iff (B : Backend) (env : Env) (service : RoutedChatService)
    (message : InboundMessage) (dateRange : Option DateRange) (subjectScope : Option String)
    (w : World B.State) :
    ((∀ text ∈ w.newQueries ((service.chat message subjectScope).exec B env w).2,
        IsNormalized text) ↔
      (message.communityId ≠ "" → ∀ src, Asks service (strip message.payload)
        (env.classify w.tick (strip message.payload))
        (env.rewrite (w.tick + 4) (strip message.payload) (env.now (w.tick + 3)).date) src →
          Askable src)) ∧
    ((∀ text ∈ w.newQueries ((service.query.answer message dateRange subjectScope).exec B env w).2,
        IsNormalized text) ↔
      (message.communityId ≠ "" → normalizeQuery message.payload ≠ "" →
        Askable message.payload)) := by
  constructor
  · rw [newQueries_of_queried (heard_exec (wp_chat_heard message subjectScope))]
    exact ⟨fun h hne src hsrc => h src ⟨hne, hsrc⟩, fun h src hsrc => h hsrc.1 src hsrc.2⟩
  · rw [newQueries_of_queried (heard_exec (wp_answer_heard service.query rfl dateRange subjectScope))]
    exact ⟨fun h hne hnormal => h _ ⟨hne, hnormal, rfl⟩,
      fun h src hsrc => hsrc.2.2 ▸ h hsrc.1 hsrc.2.1⟩

/-- A question of punctuation on a mixed route without a rewriter embeds the empty text, and one
with a layered tail keeps its inner punctuation. -/
theorem queries_not_normalized :
    let B := StoreKind.mock.backend .plain
    let w := World.initial .mock .plain
    let service : RoutedChatService :=
      ⟨"classifier", (Dispatcher.citing .standard).query, "chat", none, none, none⟩
    let mixed := { Env.steady with classify := fun _ _ => .ok ⟨.notesPlusModel, "", "model", 0⟩ }
    w.newQueries ((service.chat (.plain .chat "???" 1) none).exec B mixed w).2 = [""] ∧
      w.newQueries ((service.chat (.plain .chat "when? !" 1) none).exec B .steady w).2 = ["when?"] ∧
      ¬ IsNormalized "" ∧ ¬ IsNormalized "when?" := by
  intro B w service mixed
  refine ⟨by decide +kernel, by decide +kernel, fun h => h.1 rfl, fun h => ?_⟩
  exact absurd h.2 (by decide)

end DiaryMemory
