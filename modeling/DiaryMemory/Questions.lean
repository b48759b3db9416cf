import DiaryMemory.Paths
import DiaryMemory.QueryService
import Mathlib.Data.List.Dedup

/-!
# What the query service does

A question reads the store, asks providers and adds trace rows (`AnswerCall`). What it
retrieves are active chunks of the community (`Candidates`). It ends in an answer
(`Answered`) : without a prompt where nothing was retrieved, and otherwise with the grade
of what the chat provider replied; its traces are persisted. Or it ends in an exception
that has a `Fault` : a call of the store that raised, a provider that did, or a reply that
could not be graded.
-/

namespace DiaryMemory

variable {kind : StoreKind} {engine : SearchEngine} {env : Env}
  {P : Call → Tables → Prop} {w : World (kind.backend engine).State}

/-! ## Calls of a question -/

/-- The prompt of a call to the chat provider. -/
def SystemCall.prompt : SystemCall → Option AnswerPrompt
  | .complete prompt => some prompt
  | _ => none

/-- The prompts given to the chat provider so far. -/
def World.prompts {S : Type} (w : World S) : List AnswerPrompt :=
  w.asked.filterMap SystemCall.prompt

/-- Reads, and calls that give no prompt to the chat provider. -/
def QuietCall : Call → Tables → Prop
  | .repo (.denseCandidates ..), _ | .repo (.sparseCandidates ..), _
  | .repo (.listRecentDrafts ..), _ | .repo (.listSourceMessages ..), _ => True
  | .repo _, _ | .sys (.embed _), _ | .sys (.complete _), _ | .sys (.setLatestSources ..), _ => False
  | .sys _, _ => True

/-- The query is one of the community. -/
def Tables.QueryOf (T : Tables) (community id : String) : Prop :=
  ∃ q ∈ T.queries, q.queryId = id ∧ q.communityId = community

/-- Reads, calls to providers, and writes of traces of the community. -/
def AnswerCall (community : String) : Call → Tables → Prop
  | .repo (.saveQuery q), _ => q.communityId = community
  | .repo (.saveRetrievalHits hs), T => ∀ h ∈ hs, T.QueryOf community h.queryId ∧
    ∃ c ∈ T.eventChunks, c.chunkId = h.chunkId ∧ c.communityId = community
  | .repo (.saveAnswerTrace t), T => T.QueryOf community t.queryId
  | .repo (.saveChatRouteDecision d), _ => d.communityId = community
  | .repo (.saveChatQueryRewrite r), _ => r.communityId = community
  | .repo (.saveChatKnowledgeSearch s), _ => s.communityId = community
  | .sys (.complete _), _ => True
  | c, T => QuietCall c T

theorem QuietCall.answerCall {community : String} :
    ∀ c T, QuietCall c T → AnswerCall community c T
  | .repo c, _, h => by cases c <;> first | exact h | exact absurd h id
  | .sys c, _, h => by cases c <;> first | exact h | trivial

/-- Nothing was done to the store, and no prompt given. -/
structure Quiet (w v : World (kind.backend engine).State) : Prop where
  store : v.store = w.store
  latest : v.latestSources = w.latestSources
  draws : w.draws ≤ v.draws
  log : w.log <+: v.log
  failures : w.failures.length ≤ v.failures.length
  prompts : v.prompts = w.prompts

/-- The rows the ingestion keeps are the same. -/
structure Tables.SameContent (T T' : Tables) : Prop where
  sourceMessages : T'.sourceMessages = T.sourceMessages
  notes : T'.notes = T.notes
  eventChunks : T'.eventChunks = T.eventChunks
  embeddingRecords : T'.embeddingRecords = T.embeddingRecords
  indexingDeadLetters : T'.indexingDeadLetters = T.indexingDeadLetters

/-- Nothing but traces was written. -/
structure Asking (w v : World (kind.backend engine).State) : Prop where
  content : w.rows.SameContent v.rows
  latest : v.latestSources = w.latestSources
  draws : w.draws ≤ v.draws
  log : w.log <+: v.log
  failures : w.failures.length ≤ v.failures.length

namespace Quiet

variable {v u : World (kind.backend engine).State}

theorem refl (w : World (kind.backend engine).State) : Quiet w w :=
  ⟨rfl, rfl, le_rfl, List.prefix_rfl, le_rfl, rfl⟩

theorem trans (h : Quiet w v) (h' : Quiet v u) : Quiet w u where
  store := h'.store.trans h.store
  latest := h'.latest.trans h.latest
  draws := h.draws.trans h'.draws
  log := h.log.trans h'.log
  failures := h.failures.trans h'.failures
  prompts := h'.prompts.trans h.prompts

theorem rows (h : Quiet w v) : v.rows = w.rows := by rw [World.rows, h.store, World.rows]

theorem asking (h : Quiet w v) : Asking w v where
  content := by
    rw [h.rows]
    exact ⟨rfl, rfl, rfl, rfl, rfl⟩
  latest := h.latest
  draws := h.draws
  log := h.log
  failures := h.failures

end Quiet

theorem Tables.SameContent.trans {T T' T'' : Tables} (h : T.SameContent T')
    (h' : T'.SameContent T'') : T.SameContent T'' :=
  ⟨h'.1.trans h.1, h'.2.trans h.2, h'.3.trans h.3, h'.4.trans h.4, h'.5.trans h.5⟩

theorem Asking.refl (w : World (kind.backend engine).State) : Asking w w := (Quiet.refl w).asking

theorem Asking.trans {v u : World (kind.backend engine).State} (h : Asking w v) (h' : Asking v u) :
    Asking w u where
  content := h.content.trans h'.content
  latest := h'.latest.trans h.latest
  draws := h.draws.trans h'.draws
  log := h.log.trans h'.log
  failures := h.failures.trans h'.failures

theorem World.prompts_of_asked {v : World (kind.backend engine).State} {more : List SystemCall}
    (h : v.asked = w.asked ++ more) :
    v.prompts = w.prompts ++ more.filterMap SystemCall.prompt := by
  rw [prompts, h, List.filterMap_append, prompts]

theorem Told.prompts {c : SystemCall} {v : World (kind.backend engine).State} (h : Told c w v) :
    v.prompts = w.prompts ++ c.prompt.toList := by
  rw [World.prompts_of_asked h.asked]
  cases c <;> rfl

theorem Quiet.of_told {c : SystemCall} {v : World (kind.backend engine).State} (h : Told c w v)
    (hset : ∀ community chunks, c ≠ .setLatestSources community chunks)
    (hprompt : c.prompt = none) : Quiet w v where
  store := h.store
  latest := h.latest hset
  draws := h.draws
  log := h.log
  failures := (congrArg List.length h.failures).ge
  prompts := by rw [h.prompts, hprompt, Option.toList_none, List.append_nil]

theorem Quiet.of_raised {c : RepoCall} {e : Exn} {v : World (kind.backend engine).State}
    (h : Raised env c w e v) : Quiet w v where
  store := h.store
  latest := h.latest
  draws := h.draws
  log := h.log
  failures := by simp [h.failures]
  prompts := by rw [World.prompts, h.asked, World.prompts]

theorem Quiet.of_read {c : RepoCall} {x : RepoReply c} {v : World (kind.backend engine).State}
    (h : Returned env c w x v) (hread : c.effect w.rows = w.rows) : Quiet w v where
  store := h.store hread
  latest := h.latest
  draws := h.draws
  log := h.log
  failures := (congrArg List.length h.failures).ge
  prompts := by rw [World.prompts, h.asked, World.prompts]

/-- A procedure that only reads and asks is quiet. -/
theorem wp_quiet {α : Type} {p : Proc α}
    {R : Except Exn α → World (kind.backend engine).State → Prop}
    (hp : wp (contract kind engine env QuietCall) p R w) :
    wp (contract kind engine env QuietCall) p (fun r w' => R r w' ∧ Quiet w w') w := by
  refine wp_keeps (fun c r v v' hP _ ho hq => hq.trans ?_) (.refl w) hp
  cases c with
  | repo c =>
    cases r with
    | error e => exact .of_raised ho
    | ok x => exact .of_read ho (by cases c <;> first | rfl | exact absurd hP id)
  | sys c =>
    refine .of_told ho.1 ?_ ?_
    · rintro community chunks rfl
      exact hP
    · cases c <;> first | rfl | exact absurd hP id

/-- A procedure that makes the calls of a question changes nothing but traces. -/
theorem wp_asking {α : Type} {community : String} {p : Proc α}
    {R : Except Exn α → World (kind.backend engine).State → Prop}
    (hp : wp (contract kind engine env (AnswerCall community)) p R w) :
    wp (contract kind engine env (AnswerCall community)) p (fun r w' => R r w' ∧ Asking w w') w := by
  refine wp_keeps (fun c r v v' hP _ ho hq => hq.trans ?_) (.refl w) hp
  cases c with
  | repo c =>
    cases r with
    | error e => exact (Quiet.of_raised ho).asking
    | ok x =>
      refine ⟨?_, ho.latest, ho.draws, ho.log, (congrArg List.length ho.failures).ge⟩
      rw [ho.rows]
      cases c <;> first | exact ⟨rfl, rfl, rfl, rfl, rfl⟩ | exact absurd hP id
  | sys c =>
    refine ⟨?_, ho.1.latest ?_, ho.1.draws, ho.1.log, (congrArg List.length ho.1.failures).ge⟩
    · rw [ho.1.rows]
      exact ⟨rfl, rfl, rfl, rfl, rfl⟩
    · rintro community chunks rfl
      exact hP

/-! ## Retrieval -/

/-- The chunk can be shown to the community. -/
def Tables.Servable (T : Tables) (community : String) (c : EventChunk) : Prop :=
  c ∈ T.eventChunks ∧ c.communityId = community ∧ c.lifecycleState = .active

theorem Tables.InScope.servable {T : Tables} {scope : SearchScope} {c : EventChunk}
    (h : T.InScope scope c) : T.Servable scope.community c := by
  obtain ⟨hmem, hscope⟩ := h
  simp only [chunkInScope, Bool.and_eq_true, decide_eq_true_eq] at hscope
  exact ⟨hmem, hscope.1.1.1, hscope.1.1.2⟩

/-- What a retrieval pass of a community may find. -/
structure Candidates (T : Tables) (community : String) (found : RetrievedCandidates) : Prop where
  dense : found.dense.Nodup ∧ ∀ c ∈ found.dense, T.Servable community c
  sparse : found.sparse.Nodup ∧ ∀ c ∈ found.sparse, T.Servable community c
  nodup : (found.merged.map FusedHit.chunkId).Nodup
  merged : ∀ h ∈ found.merged, T.Servable community h.chunk
  fused : ∃ topK, reciprocalRankFusion [found.dense, found.sparse] topK = .ok found.merged

/-- One of the optional providers raised what it does not declare. -/
inductive Env.Undeclared (env : Env) : Exn → Prop
  | classifier {n : Nat} {question : String} {e : Exn} (h : env.classify n question = .error e)
      (hd : (∀ raw, e ≠ .providerOutput .classifier raw) ∧ e ≠ .providerUnavailable .classifier) :
      env.Undeclared e
  | rewriter {n : Nat} {question : String} {today : Date} {e : Exn}
      (h : env.rewrite n question today = .error e)
      (hd : (∀ raw, e ≠ .providerOutput .rewriter raw) ∧ e ≠ .providerUnavailable .rewriter) :
      env.Undeclared e
  | outwardRewriter {n : Nat} {question : String} {context : List String} {e : Exn}
      (h : env.rewriteOutward n question context = .error e)
      (hd : (∀ raw, e ≠ .providerOutput .outwardRewriter raw) ∧
        e ≠ .providerUnavailable .outwardRewriter) :
      env.Undeclared e
  | knowledge {n : Nat} {query : String} {e : Exn} (h : env.search n query = .error e)
      (hd : (∀ raw, e ≠ .providerOutput .knowledge raw) ∧ e ≠ .providerUnavailable .knowledge) :
      env.Undeclared e

/-- A call of the search seam. -/
def RepoCall.isSearch : RepoCall → Bool
  | denseCandidates .. | sparseCandidates .. => true
  | _ => false

/-- The exception is that of the last repository call that raised since : one of the search seam
that the store refused, or one that failed by itself. -/
def StoreRaised (env : Env) (w : World (kind.backend engine).State) (e : Exn)
    (w' : World (kind.backend engine).State) : Prop :=
  ∃ before c, w'.failures = before ++ [c] ∧ w.failures <+: before ∧
    (c.isSearch = true ∧ (∃ T, c.Refused kind T) ∨ ∃ n, w.tick ≤ n ∧ env.storeFails n c = some e)

namespace StoreRaised

variable {w₁ w' : World (kind.backend engine).State} {c : RepoCall} {e : Exn}

theorem of_search (h : Raised env c w e w') (hc : c.isSearch = true) : StoreRaised env w e w' := by
  obtain ⟨n, hn, hfails | ⟨-, hrefused⟩⟩ := h.why
  · exact ⟨w.failures, c, h.failures, List.prefix_rfl, .inr ⟨n, hn, hfails⟩⟩
  · exact ⟨w.failures, c, h.failures, List.prefix_rfl, .inl ⟨hc, w.rows, hrefused⟩⟩

theorem of_write (h : Raised env c w e w') (hc : ¬ c.Refused kind w.rows) :
    StoreRaised env w e w' := by
  obtain ⟨n, hn, hfails | ⟨-, hrefused⟩⟩ := h.why
  · exact ⟨w.failures, c, h.failures, List.prefix_rfl, .inr ⟨n, hn, hfails⟩⟩
  · exact absurd hrefused hc

theorem after (hlog : w.log <+: w₁.log) (h : StoreRaised env w₁ e w') : StoreRaised env w e w' := by
  obtain ⟨before, c, hfailures, hbefore, hwhy⟩ := h
  exact ⟨before, c, hfailures, (hlog.filterMap _).trans hbefore,
    hwhy.imp_right fun ⟨n, hn, hfails⟩ => ⟨n, hlog.length_le.trans hn, hfails⟩⟩

end StoreRaised

/-- Why a question may end in an exception; `ungraded` says which replies of the chat
provider can not be graded. -/
inductive Fault (env : Env) (ungraded : Except Exn ChatResponse → Exn → Prop) (community : String)
    (w w' : World (kind.backend engine).State) : Exn → Prop
  | store {e : Exn} (h : StoreRaised env w e w') : Fault env ungraded community w w' e
  | noCommunity {message : String} (h : community = "") :
      Fault env ungraded community w w' (.valueError message)
  | embedding {n : Nat} {text : String} {e : Exn} (h : env.embed n [text] = .error e) :
      Fault env ungraded community w w' e
  | noVector {n : Nat} {text : String} (h : env.embed n [text] = .ok []) :
      Fault env ungraded community w w' (.other "IndexError")
  | undeclared {e : Exn} (h : env.Undeclared e) : Fault env ungraded community w w' e
  | grading {n : Nat} {prompt : AnswerPrompt} {e : Exn} (hn : w.tick ≤ n)
      (hprompts : w'.prompts = w.prompts ++ [prompt]) (h : ungraded (env.complete n prompt) e) :
      Fault env ungraded community w w' e

theorem Fault.after {ungraded : Except Exn ChatResponse → Exn → Prop} {community : String}
    {w₁ w' : World (kind.backend engine).State} {e : Exn} (hq : Quiet w w₁)
    (h : Fault env ungraded community w₁ w' e) : Fault env ungraded community w w' e := by
  cases h with
  | store h => exact .store (h.after hq.log)
  | noCommunity h => exact .noCommunity h
  | embedding h => exact .embedding h
  | noVector h => exact .noVector h
  | undeclared h => exact .undeclared h
  | grading hn hprompts h =>
    exact .grading (hq.log.length_le.trans hn) (by rw [hprompts, hq.prompts]) h

/-- A step that returns what `V` says, or has a fault. -/
def Blamed {α : Type} (env : Env) (ungraded : Except Exn ChatResponse → Exn → Prop)
    (community : String) (V : α → Prop) (w : World (kind.backend engine).State) :
    Except Exn α → World (kind.backend engine).State → Prop
  | .ok a, _ => V a
  | .error e, w' => Fault env ungraded community w w' e

theorem wp_ofExcept {α : Type} (x : Except Exn α)
    (Q : Except Exn α → World (kind.backend engine).State → Prop) :
    wp (contract kind engine env P) (Proc.ofExcept x) Q w ↔ Q x w := by
  cases x <;> exact Iff.rfl

/-- A retrieval pass reads, and finds chunks that can be shown. -/
theorem wp_retrieve (service : QueryService) (ungraded : Except Exn ChatResponse → Exn → Prop)
    (community text : String) (dateRange : Option DateRange) (subjectScope : Option String) :
    wp (contract kind engine env QuietCall) (service.retrieve community text dateRange subjectScope)
      (Blamed env ungraded community (Candidates w.rows community) w) w := by
  unfold QueryService.retrieve
  split
  · next h => exact .noCommunity h
  refine (wp_bind _ _ _ w).mpr (wp_sys trivial ?_)
  rintro r w₁ hs₁ ht ⟨n, -, rfl⟩
  have hq : Quiet w w₁ := .of_told ht nofun rfl
  cases hanswer : env.embed n [text] with
  | error e => exact .embedding hanswer
  | ok vectors =>
    match vectors, hanswer with
    | [], hanswer => exact .noVector hanswer
    | queryEmbedding :: _, _ =>
      refine wp_repo_bind ⟨trivial, nofun⟩ trivial (fun e w₂ _ hr => .after hq (.store (.of_search hr rfl)))
        fun (dense : List EventChunk) w₂ hs₂ hr => ?_
      have hdense : w₁.rows.DenseResult service.embed.modelName _ dense := hr.value
      have hq₂ := hq.trans (.of_read hr rfl)
      refine wp_repo_bind ⟨trivial, nofun⟩ trivial (fun e w₃ _ hr => .after hq₂ (.store (.of_search hr rfl)))
        fun (sparse : List EventChunk) w₃ hs₃ hr => ?_
      have hsparse : w₂.rows.SparseResult _ sparse := hr.value
      rw [hq.rows] at hdense
      rw [hq₂.rows] at hsparse
      obtain ⟨merged, hfusion⟩ := fusion_default [dense, sparse] service.topK
      rw [hfusion]
      have hd : ∀ c ∈ dense, w.rows.Servable community c := fun c hc => (hdense.2 c hc).1.servable
      have hsp : ∀ c ∈ sparse, w.rows.Servable community c := fun c hc => (hsparse.2 c hc).servable
      refine ⟨⟨hdense.1, hd⟩, ⟨hsparse.1, hsp⟩, nodup_fusion hfusion, fun h hh => ?_, _, hfusion⟩
      obtain ⟨ranking, hranking, hc⟩ := mem_of_mem_fusion hfusion hh
      rcases List.mem_cons.mp hranking with rfl | hranking
      · exact hd _ hc
      · rw [List.mem_singleton.mp hranking] at hc
        exact hsp _ hc

/-! ## Retrieval hits -/

/-- Identifiers drawn between two numbers of draws. -/
structure DrawnBetween (env : Env) (lo hi : Nat) (ids : List String) : Prop where
  nodup : ids.Nodup
  drawn : ∀ id ∈ ids, ∃ j, lo ≤ j ∧ j < hi ∧ id = env.uuid j

namespace DrawnBetween

variable {lo mid hi : Nat} {ids ids' : List String}

theorem nil : DrawnBetween env lo hi [] := ⟨List.nodup_nil, nofun⟩

theorem append (h : DrawnBetween env lo mid ids) (h' : DrawnBetween env mid hi ids')
    (hlo : lo ≤ mid) (hhi : mid ≤ hi) : DrawnBetween env lo hi (ids ++ ids') where
  nodup := by
    refine List.nodup_append.mpr ⟨h.nodup, h'.nodup, fun a ha b hb he => ?_⟩
    obtain ⟨j, -, hj, rfl⟩ := h.drawn a ha
    obtain ⟨j', hj', -, rfl⟩ := h'.drawn b hb
    exact absurd (env.uuid_injective he) (by omega)
  drawn id hid := by
    rcases List.mem_append.mp hid with hid | hid
    · obtain ⟨j, h1, h2, he⟩ := h.drawn id hid
      exact ⟨j, h1, h2.trans_le hhi, he⟩
    · obtain ⟨j, h1, h2, he⟩ := h'.drawn id hid
      exact ⟨j, hlo.trans h1, h2, he⟩

theorem single {j : Nat} (hlo : lo ≤ j) (hhi : j < hi) : DrawnBetween env lo hi [env.uuid j] where
  nodup := List.nodup_singleton _
  drawn _ hid := ⟨j, hlo, hhi, List.mem_singleton.mp hid⟩

end DrawnBetween

/-- What distinguishes the hits of one question. -/
def RetrievalHit.seen (h : RetrievalHit) : String × String × RetrievalLeg :=
  (h.queryId, h.chunkId, h.leg)

/-- The place of a hit in its leg. -/
def RetrievalHit.place (h : RetrievalHit) : RetrievalLeg × Nat := (h.leg, h.rank)

theorem wp_legHits {queryId modelName : String} {leg : RetrievalLeg} {createdAt : DateTime} :
    ∀ {scored : List (EventChunk × ℚ)} {rank : Nat} {w : World (kind.backend engine).State},
      Sound env w → wp (contract kind engine env QuietCall)
        (legHits queryId leg modelName createdAt rank scored)
        (fun r w' => ∃ hits, r = .ok hits ∧ Later w w' ∧
          DrawnBetween env w.draws w'.draws (hits.map RetrievalHit.retrievalHitId) ∧
          hits.map RetrievalHit.seen = scored.map (fun x => (queryId, x.1.chunkId, leg)) ∧
          hits.map RetrievalHit.place = (List.range' rank scored.length).map fun n => (leg, n)) w
  | [], _, w, _ => ⟨[], rfl, .refl w, .nil, rfl, rfl⟩
  | (chunk, score) :: scored, rank, w, hs => by
    refine wp_uuid4_bind trivial fun j w₁ hs₁ ht hj hj' => ?_
    have hl := ht.later rfl nofun
    refine wp_seq_ok hs₁ (wp_legHits hs₁) ?_
    rintro hits w₂ _ ⟨hl₂, hids, hseen, hplace⟩
    refine ⟨_, rfl, hl.trans hl₂, ?_, ?_, ?_⟩
    · exact .append (.single hj hj') hids (hj.trans hj'.le) hl₂.draws
    · rw [List.map_cons, List.map_cons, hseen]
      rfl
    · rw [List.map_cons, List.length_cons, List.range'_succ, List.map_cons, hplace]
      rfl

theorem length_scoredByRank (chunks : List EventChunk) (rank : Nat) :
    (scoredByRank rank chunks).length = chunks.length := by
  induction chunks generalizing rank with
  | nil => rfl
  | cons _ chunks ih => rw [scoredByRank, List.length_cons, ih, List.length_cons]

theorem scoredByRank_map {β : Type} (f : EventChunk → β) : ∀ (chunks : List EventChunk) (rank : Nat),
    (scoredByRank rank chunks).map (fun x => f x.1) = chunks.map f
  | [], _ => rfl
  | _ :: chunks, rank => congrArg (_ :: ·) (scoredByRank_map f chunks (rank + 1))

/-- The places of a leg with `n` hits : the ranks from 1 to `n`. -/
def places (leg : RetrievalLeg) (n : Nat) : List (RetrievalLeg × Nat) :=
  (List.range' 1 n).map fun rank => (leg, rank)

/-- The hits of a question : new identifiers, the chunks of each leg in its order, ranked
from 1. -/
structure HitsOf (env : Env) (lo hi : Nat) (queryId : String) (found : RetrievedCandidates)
    (hits : List RetrievalHit) : Prop where
  ids : DrawnBetween env lo hi (hits.map RetrievalHit.retrievalHitId)
  seen : hits.map RetrievalHit.seen =
    found.dense.map (fun c => (queryId, c.chunkId, .dense)) ++
    (found.sparse.map (fun c => (queryId, c.chunkId, .sparse)) ++
      found.merged.map fun h => (queryId, h.chunk.chunkId, .merged))
  place : hits.map RetrievalHit.place = places .dense found.dense.length ++
    (places .sparse found.sparse.length ++ places .merged found.merged.length)

theorem wp_buildRetrievalHits (hs : Sound env w) (queryId modelName : String) (createdAt : DateTime)
    (found : RetrievedCandidates) :
    wp (contract kind engine env QuietCall) (buildRetrievalHits queryId modelName createdAt found)
      (fun r w' => ∃ hits, r = .ok hits ∧ Later w w' ∧
        HitsOf env w.draws w'.draws queryId found hits) w := by
  unfold buildRetrievalHits
  refine wp_seq_ok hs (wp_legHits hs) ?_
  rintro dense w₁ hs₁ ⟨hl₁, hids₁, hseen₁, hplace₁⟩
  refine wp_seq_ok hs₁ (wp_legHits hs₁) ?_
  rintro sparse w₂ hs₂ ⟨hl₂, hids₂, hseen₂, hplace₂⟩
  refine wp_seq_ok hs₂ (wp_legHits hs₂) ?_
  rintro merged w₃ hs₃ ⟨hl₃, hids₃, hseen₃, hplace₃⟩
  refine ⟨_, rfl, (hl₁.trans hl₂).trans hl₃, ?_, ?_, ?_⟩
  · rw [List.append_assoc, List.map_append, List.map_append]
    exact hids₁.append (hids₂.append hids₃ hl₂.draws hl₃.draws) hl₁.draws (hl₂.draws.trans hl₃.draws)
  · rw [List.append_assoc, List.map_append, List.map_append, hseen₁, hseen₂, hseen₃,
      scoredByRank_map fun c => (queryId, c.chunkId, RetrievalLeg.dense),
      scoredByRank_map fun c => (queryId, c.chunkId, RetrievalLeg.sparse), List.map_map]
    rfl
  · rw [List.append_assoc, List.map_append, List.map_append, hplace₁, hplace₂, hplace₃,
      length_scoredByRank, length_scoredByRank, List.length_map]
    rfl

/-! ## Persisting a question -/

theorem Returned.prompts {c : RepoCall} {x : RepoReply c} {v : World (kind.backend engine).State}
    (h : Returned env c w x v) : v.prompts = w.prompts := by
  rw [World.prompts, h.asked, World.prompts]

theorem Raised.prompts {c : RepoCall} {e : Exn} {v : World (kind.backend engine).State}
    (h : Raised env c w e v) : v.prompts = w.prompts := (Quiet.of_raised h).prompts

theorem Later.quiet {v : World (kind.backend engine).State} (h : Later w v) : Quiet w v where
  store := h.store
  latest := h.latest
  draws := h.draws
  log := h.log
  failures := (congrArg List.length h.failures).ge
  prompts := by rw [World.prompts, h.asked, World.prompts]

/-- A chunk is seen at most once in each leg. -/
theorem HitsOf.nodup_seen {T : Tables} {community queryId : String} {found : RetrievedCandidates}
    {hits : List RetrievalHit} {lo hi : Nat} (hc : Candidates T community found)
    (h : HitsOf env lo hi queryId found hits) : (hits.map RetrievalHit.seen).Nodup := by
  have hinj : ∀ {cs : List EventChunk} (leg : RetrievalLeg), cs.Nodup →
      (∀ c ∈ cs, T.Servable community c) →
      (cs.map fun c => (queryId, c.chunkId, leg)).Nodup := fun leg hnodup hcs =>
    hnodup.map_on fun c hcm d hd he =>
      Table.eq_of_key (hcs c hcm).1 (hcs d hd).1 (congrArg (fun x => x.2.1) he :)
  have hmerged : (found.merged.map fun h => (queryId, h.chunk.chunkId, RetrievalLeg.merged)).Nodup := by
    refine List.Nodup.of_map (fun x : String × String × RetrievalLeg => x.2.1) ?_
    rw [List.map_map]
    exact hc.nodup
  rw [h.seen]
  refine List.nodup_append.mpr ⟨hinj _ hc.dense.1 hc.dense.2, List.nodup_append.mpr
    ⟨hinj _ hc.sparse.1 hc.sparse.2, hmerged, ?_⟩, ?_⟩
  · intro a ha b hb he
    obtain ⟨c, -, rfl⟩ := List.mem_map.mp ha
    obtain ⟨d, -, rfl⟩ := List.mem_map.mp hb
    cases (congrArg (fun x => x.2.2) he :)
  · intro a ha b hb he
    obtain ⟨c, -, rfl⟩ := List.mem_map.mp ha
    rcases List.mem_append.mp hb with hb | hb
    · obtain ⟨d, -, rfl⟩ := List.mem_map.mp hb
      cases (congrArg (fun x => x.2.2) he :)
    · obtain ⟨d, -, rfl⟩ := List.mem_map.mp hb
      cases (congrArg (fun x => x.2.2) he :)

/-- A hit is of the question, and of a chunk that was found. -/
theorem HitsOf.mem {T : Tables} {community queryId : String} {found : RetrievedCandidates}
    {hits : List RetrievalHit} {lo hi : Nat} (hc : Candidates T community found)
    (h : HitsOf env lo hi queryId found hits) :
    ∀ x ∈ hits, x.queryId = queryId ∧ ∃ c, T.Servable community c ∧ c.chunkId = x.chunkId := by
  intro x hx
  have hseen : x.seen ∈ hits.map RetrievalHit.seen := List.mem_map_of_mem hx
  have hone : ∀ c : EventChunk, T.Servable community c → ∀ leg : RetrievalLeg,
      (queryId, c.chunkId, leg) = x.seen →
      x.queryId = queryId ∧ ∃ c, T.Servable community c ∧ c.chunkId = x.chunkId := by
    intro c hcs leg he
    exact ⟨(congrArg Prod.fst he).symm, c, hcs, congrArg (fun y => y.2.1) he⟩
  rw [h.seen] at hseen
  rcases List.mem_append.mp hseen with hs | hs
  · obtain ⟨c, hcm, he⟩ := List.mem_map.mp hs
    exact hone c (hc.dense.2 c hcm) _ he
  · rcases List.mem_append.mp hs with hs | hs
    · obtain ⟨c, hcm, he⟩ := List.mem_map.mp hs
      exact hone c (hc.sparse.2 c hcm) _ he
    · obtain ⟨m, hmm, he⟩ := List.mem_map.mp hs
      exact hone m.chunk (hc.merged m hmm) _ he

/-- The hits of a question just saved can be saved. -/
theorem HitsOf.guard {T T' : Tables} {community queryId : String} {found : RetrievedCandidates}
    {hits : List RetrievalHit} {lo hi : Nat} (hT : T.Linked) (hm : T.Minted env.uuid lo)
    (hc : Candidates T community found) (h : HitsOf env lo hi queryId found hits)
    (hnew : ∀ x ∈ T.queries, x.queryId ≠ queryId) (hhits : T'.retrievalHits = T.retrievalHits)
    (hchunks : T'.eventChunks = T.eventChunks) (hquery : ∃ q ∈ T'.queries, q.queryId = queryId) :
    (RepoCall.saveRetrievalHits hits).Guard T' := by
  refine ⟨h.ids.nodup, h.nodup_seen hc, fun x hx => ?_⟩
  obtain ⟨hq, c, hcs, hcid⟩ := h.mem hc x hx
  rw [hhits, hchunks, hq]
  refine ⟨fun y hy => ⟨?_, ?_⟩, hquery, c, hcs.1, hcid⟩
  · obtain ⟨j, hj, -, hid⟩ := h.ids.drawn _ (List.mem_map_of_mem hx)
    rw [hid]
    exact (hm.hit y hy).ne env.uuid_injective hj
  · obtain ⟨q, hqm, hqid⟩ := hT.hit_query y hy
    exact hqid ▸ hnew q hqm

/-- The query and its hits are saved. -/
theorem wp_saveQueryAndHits {modelName : String} {found : RetrievedCandidates} {q : Query}
    (hs : Sound env w)
    (hdrawn : Drawn env.uuid w.draws q.queryId) (hnew : ∀ x ∈ w.rows.queries, x.queryId ≠ q.queryId)
    (hfound : Candidates w.rows q.communityId found) :
    wp (contract kind engine env (AnswerCall q.communityId))
      (QueryService.saveQueryAndHits q modelName found)
      (fun r w' => w'.prompts = w.prompts ∧ match r with
        | .ok _ => ∃ hits lo hi, HitsOf env lo hi q.queryId found hits ∧ w.rows.Minted env.uuid lo ∧
          w'.rows = (w.rows.putQuery q).putHits hits
        | .error e => StoreRaised env w e w') w := by
  refine wp_repo_bind ⟨hnew, fun id hid => ?_⟩ rfl
    (fun e w₁ _ hr => ⟨hr.prompts, .of_write hr id⟩) fun _ w₁ hs₁ hr => ?_
  · rw [List.mem_singleton.mp hid]
    exact hdrawn
  have hrows : w₁.rows = w.rows.putQuery q := hr.rows
  have hfound₁ : Candidates w₁.rows q.communityId found := by
    rw [hrows]
    exact ⟨hfound.dense, hfound.sparse, hfound.nodup, hfound.merged, hfound.fused⟩
  refine wp_seq_ok hs₁ (wp_promise QuietCall.answerCall (wp_buildRetrievalHits hs₁ _ _ _ found)) ?_
  rintro hits w₂ hs₂ ⟨hl, hhits⟩
  have hrows₂ : w₂.rows = w.rows.putQuery q := hl.rows.trans hrows
  have hprompts : w₂.prompts = w.prompts := hl.quiet.prompts.trans hr.prompts
  have hquery : q ∈ w₂.rows.queries := hrows₂ ▸ Table.mem_put_self
  have hminted : w.rows.Minted env.uuid w₁.draws := hs.minted.mono hr.draws
  split
  · next hnil =>
    refine ⟨hprompts, hits, _, _, hhits, hminted, hrows₂.trans ?_⟩
    rw [hnil]
    rfl
  refine wp_repo ⟨hhits.guard hs.linked hminted hfound hnew ?_ ?_ ⟨q, hquery, rfl⟩, fun id hid => ?_⟩
    (fun x hx => ?_) (fun e w₃ _ hr₃ => ⟨hr₃.prompts.trans hprompts,
      .after (hr.log.trans hl.log) (.of_write hr₃ id)⟩)
    fun _ w₃ _ hr₃ => ⟨hr₃.prompts.trans hprompts, hits, _, _, hhits, hminted, ?_⟩
  · rw [hrows₂]
    rfl
  · rw [hrows₂]
    rfl
  · obtain ⟨j, -, hj, rfl⟩ := hhits.ids.drawn id hid
    exact ⟨j, hj, rfl⟩
  · obtain ⟨hq, c, hcs, hcid⟩ := hhits.mem hfound₁ x hx
    exact ⟨⟨q, hquery, hq.symm, rfl⟩, c, hl.rows ▸ hcs.1, hcid, hcs.2.1⟩
  · rw [hr₃.rows, hrows₂]
    rfl

/-- The rows of one question, new in `T` : its query, the hits of what it found, and its trace. -/
structure QuestionRows (env : Env) (community queryId : String) (fallback : FallbackMode)
    (found : RetrievedCandidates) (T : Tables) (q : Query) (hits : List RetrievalHit)
    (t : AnswerTrace) (lo hi : Nat) : Prop where
  query : q.queryId = queryId ∧ q.communityId = community ∧ q.fallback = fallback
  trace : t.queryId = queryId ∧ t.fallbackMode = fallback ∧
    t.contextChunkIds = found.merged.map FusedHit.chunkId
  ofHits : HitsOf env lo hi queryId found hits
  minted : T.Minted env.uuid lo

/-- From `T` to `T'`, the rows of one question were added. -/
structure Traced (env : Env) (community queryId : String) (fallback : FallbackMode)
    (found : RetrievedCandidates) (T T' : Tables) : Prop where
  rows : ∃ q hits t lo hi,
    QuestionRows env community queryId fallback found T q hits t lo hi ∧
      T' = ((T.putQuery q).putHits hits).putTrace t
  fresh : ∀ x ∈ T.queries, x.queryId ≠ queryId

/-- The trace of a question just saved can be saved. -/
theorem allowed_saveTrace {T : Tables} {t : AnswerTrace} {q : Query} (hT : T.Linked)
    (hnew : ∀ x ∈ T.queries, x.queryId ≠ q.queryId) (hm : T.Minted env.uuid w.draws)
    (hquery : q ∈ w.rows.queries)
    (htraces : w.rows.answerTraces = T.answerTraces) {j : Nat} (hj : w.draws ≤ j)
    (hid : t.answerTraceId = env.uuid j) (ht : t.queryId = q.queryId)
    {v : World (kind.backend engine).State} (hv : v.rows = w.rows) (hj' : j < v.draws) :
    Allowed env v (.repo (.saveAnswerTrace t)) := by
  refine ⟨⟨fun x hx => ?_, q, hv ▸ hquery, ht.symm⟩, fun id hmem => ?_⟩
  · rw [hv, htraces] at hx
    refine ⟨hid ▸ (hm.trace x hx).ne env.uuid_injective hj, ?_⟩
    obtain ⟨y, hy, hyid⟩ := hT.trace_query x hx
    rw [ht, ← hyid]
    exact hnew y hy
  · rw [List.mem_singleton.mp hmem, hid]
    exact ⟨j, hj', rfl⟩

/-! ## Answering -/

/-- The result of a graded question. -/
def Graded.result (g : Graded) (queryText : String) (context : AnswerContext)
    (merged : List FusedHit) : AnswerResult where
  fallback := g.fallback
  queryText := queryText
  evidence := merged.map FusedHit.evidence
  context := some context
  answerText := g.answerText
  citedChunkIds := g.citedChunkIds

theorem wp_finalize {found : RetrievedCandidates} {query : Query} {context : AnswerContext}
    {graded : Graded} (hs : Sound env w)
    (hdrawn : Drawn env.uuid w.draws query.queryId)
    (hnew : ∀ x ∈ w.rows.queries, x.queryId ≠ query.queryId)
    (hfound : Candidates w.rows query.communityId found)
    (hcontext : graded.traceContextChunkIds = found.merged.map FusedHit.chunkId) :
    wp (contract kind engine env (AnswerCall query.communityId))
      (QueryService.finalize query found context graded)
      (fun r w' => w'.prompts = w.prompts ∧ match r with
        | .ok a => a = graded.result query.queryText context found.merged ∧
          Traced env query.communityId query.queryId graded.fallback found w.rows w'.rows
        | .error e => StoreRaised env w e w') w := by
  unfold QueryService.finalize
  set saved : Query := { query with fallback := graded.fallback } with hsaved
  have hnew' : ∀ x ∈ w.rows.queries, x.queryId ≠ saved.queryId := hnew
  refine wp_seq hs (wp_asking (wp_saveQueryAndHits (q := saved) hs hdrawn hnew' hfound))
    (fun e w₁ _ h => h.1) fun _ w₁ hs₁ h => ?_
  obtain ⟨⟨hprompts, hits, lo, hi, hhits, hlo, hrows⟩, hasking⟩ := h
  have hquery : saved ∈ w₁.rows.queries := hrows ▸ Table.mem_put_self
  have htraces : w₁.rows.answerTraces = w.rows.answerTraces := hrows ▸ rfl
  refine wp_uuid4_bind trivial fun j w₂ hs₂ ht hj hj' => ?_
  refine wp_now_bind trivial fun now w₃ hs₃ ht₃ => ?_
  have hl : Later w₁ w₃ := (ht.later rfl nofun).trans (ht₃.later rfl nofun)
  have hminted : w.rows.Minted env.uuid w₁.draws := hs.minted.mono hasking.draws
  have hprompts₃ : w₃.prompts = w.prompts := hl.quiet.prompts.trans hprompts
  refine wp_repo_bind (allowed_saveTrace hs.linked hnew' hminted hquery htraces hj rfl rfl hl.rows
    (hj'.trans_le ht₃.draws)) ⟨saved, hl.rows ▸ hquery, rfl, rfl⟩ (fun e w₄ _ hr =>
      ⟨hr.prompts.trans hprompts₃, .after (hasking.log.trans hl.log) (.of_write hr id)⟩)
    fun _ w₄ _ hr => ?_
  · have hrows₄ := hr.rows
    rw [hl.rows, hrows] at hrows₄
    exact ⟨hr.prompts.trans hprompts₃, rfl, ⟨saved, hits, _, lo, hi,
      ⟨⟨rfl, rfl, rfl⟩, ⟨rfl, rfl, hcontext⟩, hhits, hlo⟩, hrows₄⟩, hnew⟩

/-- Grading refuses a reply in some context. -/
def QueryService.Ungraded (service : QueryService) (reply : Except Exn ChatResponse) (e : Exn) :
    Prop :=
  ∃ context, service.grade context reply = .error e

/-- What an answered question leaves. -/
structure Answered (env : Env) (service : QueryService) (community : String)
    (w w' : World (kind.backend engine).State) (a : AnswerResult) (context : AnswerContext)
    (found : RetrievedCandidates) (g : Graded) : Prop where
  result : ∃ queryText, a = g.result queryText context found.merged
  chunks : context.orderedChunks = found.merged.map FusedHit.chunk
  candidates : Candidates w.rows community found
  verdict : context.orderedChunks = [] ∧ g = service.noEvidence ∧ w'.prompts = w.prompts ∨
    ∃ n prompt, w.tick ≤ n ∧ w'.prompts = w.prompts ++ [prompt] ∧
      service.grade context (env.complete n prompt) = .ok g
  traced : Traced env community context.queryId g.fallback found w.rows w'.rows

/-- The trace of a graded reply names the whole context. -/
theorem QueryService.grade_contextChunkIds {service : QueryService} {context : AnswerContext}
    {reply : Except Exn ChatResponse} {g : Graded} (h : service.grade context reply = .ok g) :
    g.traceContextChunkIds = context.chunkIds := by
  unfold grade at h
  split at h
  · cases h
    rfl
  · cases h
  · split at h
    · cases h
      rfl
    · cases h
    · cases h
      rfl

theorem candidates_nil (T : Tables) (community modelName : String) :
    Candidates T community ⟨[], [], [], modelName⟩ :=
  ⟨⟨List.nodup_nil, nofun⟩, ⟨List.nodup_nil, nofun⟩, List.nodup_nil, nofun, 0, rfl⟩

/-- The chunks of one community make a prompt. -/
theorem checkSingleCommunity_ok (json : JsonModule) {context : AnswerContext} {community : String}
    (h : ∀ c ∈ context.orderedChunks, c.communityId = community) :
    checkSingleCommunity json context = .ok () := by
  have hone : ∀ x ∈ (context.orderedChunks.map EventChunk.communityId).dedup, x = community := by
    intro x hx
    obtain ⟨c, hc, rfl⟩ := List.mem_map.mp (List.mem_dedup.mp hx)
    exact h c hc
  have hlen : (context.orderedChunks.map EventChunk.communityId).dedup.length ≤ 1 := by
    match hd : (context.orderedChunks.map EventChunk.communityId).dedup with
    | [] => exact Nat.zero_le 1
    | [x] => exact le_rfl
    | x :: y :: rest =>
      have hnodup := hd ▸ List.nodup_dedup (context.orderedChunks.map EventChunk.communityId)
      rw [hd] at hone
      have hxy : x = y := (hone x (by simp)).trans (hone y (by simp)).symm
      simp [hxy] at hnodup
  rw [checkSingleCommunity, if_neg (by omega)]
  rfl

theorem wp_complete_bind {β : Type} {prompt : AnswerPrompt} {f : Except Exn ChatResponse → Proc β}
    {Q : Except Exn β → World (kind.backend engine).State → Prop}
    (hP : P (.sys (.complete prompt)) w.rows)
    (h : ∀ n w', w.tick ≤ n → Sound env w' → Told (.complete prompt) w w' →
      wp (contract kind engine env P) (f (env.complete n prompt)) Q w') :
    wp (contract kind engine env P) (capture (Proc.complete prompt) >>= f) Q w := by
  rw [wp_bind]
  refine (wp_capture _ _ w).mpr (wp_sys hP ?_)
  rintro r w' hs ht ⟨n, hn, rfl⟩
  exact h n w' hn hs ht

section Answering

variable {service : QueryService}

/-- Where a question may end. -/
def QuestionEnd (env : Env) (service : QueryService) (community : String)
    (w : World (kind.backend engine).State) :
    Except Exn AnswerResult → World (kind.backend engine).State → Prop
  | .ok a, w' => ∃ context found g, Answered env service community w w' a context found g
  | .error e, w' => Fault env service.Ungraded community w w' e

theorem QuestionEnd.after {community : String} {w₁ w' : World (kind.backend engine).State}
    {r : Except Exn AnswerResult} (hq : Quiet w w₁)
    (h : QuestionEnd env service community w₁ r w') : QuestionEnd env service community w r w' := by
  cases r with
  | error e => exact Fault.after hq h
  | ok a =>
    obtain ⟨context, found, g, h⟩ := h
    refine ⟨context, found, g, h.result, h.chunks, hq.rows ▸ h.candidates, ?_, hq.rows ▸ h.traced⟩
    rw [← hq.prompts]
    exact h.verdict.imp_right fun ⟨n, prompt, hn, hreply⟩ =>
      ⟨n, prompt, hq.log.length_le.trans hn, hreply⟩

theorem wp_generate {query : Query} {found : RetrievedCandidates}
    (hdrawn : Drawn env.uuid w.draws query.queryId)
    (hnew : ∀ x ∈ w.rows.queries, x.queryId ≠ query.queryId)
    (hfound : Candidates w.rows query.communityId found) :
    wp (contract kind engine env (AnswerCall query.communityId)) (service.generate query found)
      (QuestionEnd env service query.communityId w) w := by
  have hservable : ∀ c ∈ (assembleAnswerContext query found.merged).orderedChunks,
      w.rows.Servable query.communityId c := by
    intro c hc
    obtain ⟨h, hh, rfl⟩ := List.mem_map.mp hc
    exact hfound.merged h hh
  unfold QueryService.generate
  dsimp only
  rw [buildAnswerPrompt, checkSingleCommunity_ok _ fun c hc => (hservable c hc).2.1]
  refine wp_complete_bind trivial fun n w₁ hn hs₁ ht => ?_
  rw [wp_bind, wp_ofExcept]
  have hprompts := ht.prompts
  cases hgrade : service.grade (assembleAnswerContext query found.merged) (env.complete n _) with
  | error e => exact .grading hn hprompts ⟨_, hgrade⟩
  | ok g =>
    rw [← ht.rows] at hnew hfound
    have hcontext : g.traceContextChunkIds = found.merged.map FusedHit.chunkId :=
      (QueryService.grade_contextChunkIds hgrade).trans (List.map_map ..)
    refine wp_imp (fun r w₂ h => ?_) (wp_finalize hs₁ (hdrawn.mono ht.draws) hnew hfound hcontext)
    cases r with
    | error e => exact .store (h.2.after ht.log)
    | ok a =>
      obtain ⟨hprompts₂, rfl, htraced⟩ := h
      exact ⟨_, found, g, ⟨_, rfl⟩, rfl, ht.rows ▸ hfound,
        .inr ⟨n, _, hn, hprompts₂.trans hprompts, hgrade⟩, ht.rows ▸ htraced⟩

theorem wp_answerQuery {query : Query} (hs : Sound env w)
    (hdrawn : Drawn env.uuid w.draws query.queryId)
    (hnew : ∀ x ∈ w.rows.queries, x.queryId ≠ query.queryId) (dateRange : Option DateRange)
    (subjectScope : Option String) :
    wp (contract kind engine env (AnswerCall query.communityId))
      (service.answerQuery query dateRange subjectScope)
      (QuestionEnd env service query.communityId w) w := by
  unfold QueryService.answerQuery
  refine wp_seq hs (wp_promise QuietCall.answerCall (wp_quiet (wp_retrieve service service.Ungraded
    _ _ dateRange subjectScope))) (fun e w₁ _ h => h.1) fun found w₁ hs₁ h => ?_
  obtain ⟨hfound, hq⟩ := h
  rw [← hq.rows] at hnew hfound
  split
  · next hmerged =>
    have hnone : (assembleAnswerContext query found.merged).orderedChunks = [] := by
      rw [hmerged]
      rfl
    have hcontext : service.noEvidence.traceContextChunkIds = found.merged.map FusedHit.chunkId := by
      rw [hmerged]
      rfl
    refine wp_imp (fun r w₂ h => ?_) (wp_finalize hs₁ (hdrawn.mono hq.draws) hnew hfound hcontext)
    cases r with
    | error e => exact .after hq (.store h.2)
    | ok a =>
      obtain ⟨hprompts, rfl, htraced⟩ := h
      exact ⟨_, found, _, ⟨_, rfl⟩, rfl, hq.rows ▸ hfound,
        .inl ⟨hnone, rfl, hprompts.trans hq.prompts⟩, hq.rows ▸ htraced⟩
  · exact wp_imp (fun r w₂ h => .after hq h) (wp_generate (hdrawn.mono hq.draws) hnew hfound)

theorem wp_answerNew {query : Query} (hs : Sound env w)
    (hdrawn : Drawn env.uuid w.draws query.queryId)
    (hnew : ∀ x ∈ w.rows.queries, x.queryId ≠ query.queryId) (dateRange : Option DateRange)
    (subjectScope : Option String) :
    wp (contract kind engine env (AnswerCall query.communityId))
      (service.answerNew query dateRange subjectScope)
      (QuestionEnd env service query.communityId w) w := by
  unfold QueryService.answerNew
  split
  · refine wp_imp (fun r w₁ h => ?_)
      (wp_finalize hs hdrawn hnew (candidates_nil _ query.communityId _) rfl)
    cases r with
    | error e => exact .store h.2
    | ok a =>
      obtain ⟨hprompts, rfl, htraced⟩ := h
      exact ⟨_, _, _, ⟨_, rfl⟩, rfl, candidates_nil _ _ _, .inl ⟨rfl, rfl, hprompts⟩, htraced⟩
  · exact wp_answerQuery hs hdrawn hnew _ _

/-- A question ends in an answer, or has a fault. -/
theorem wp_answer (message : InboundMessage) (dateRange : Option DateRange)
    (subjectScope : Option String) (hs : Sound env w) :
    wp (contract kind engine env (AnswerCall message.communityId))
      (service.answer message dateRange subjectScope)
      (QuestionEnd env service message.communityId w) w := by
  unfold QueryService.answer
  -- the text is of no interest here, and unfolding a goal would compute it
  generalize normalizeQuery message.payload = queryText
  split
  · next h => exact Fault.noCommunity h
  refine wp_now_bind trivial fun createdAt w₁ hs₁ ht₁ => ?_
  refine wp_uuid4_bind trivial fun j w₂ hs₂ ht₂ hj hj' => ?_
  have hq : Quiet w w₂ := ((ht₁.later rfl nofun).trans (ht₂.later rfl nofun)).quiet
  have hnew : ∀ x ∈ w₂.rows.queries, x.queryId ≠ env.uuid j := by
    rw [hq.rows]
    exact fun x hx => (hs.minted.query x hx).ne env.uuid_injective (ht₁.draws.trans hj)
  set query : Query := ⟨env.uuid j, message.communityId, queryText, service.embed.modelName, .none,
    createdAt, subjectScope⟩ with hquery
  have hdrawn : Drawn env.uuid w₂.draws query.queryId := ⟨j, hj', rfl⟩
  exact wp_imp (fun r w₃ h => .after hq h) (wp_answerNew hs₂ hdrawn hnew dateRange subjectScope)

end Answering

end DiaryMemory
