import DiaryMemory.Backlog
import DiaryMemory.Ranking
import DiaryMemory.Recovery
import DiaryMemory.Settled

/-!
# Limited retries

The failed chunks of a community, oldest first, are a backlog, and a retry with a limit in which
nothing fails is a round over it : it clears the chunks it lists that have no record under the
model of the client (`failedChunks_retried`).

So retries with a limit drain the failed chunks in order, but one that has `limit` older chunks
with records before it is never listed (`limited_retries`).
-/

namespace DiaryMemory

namespace Tables

variable (T : Tables) (model : String)

/-- The failed chunks of the community of a chunk that are older. -/
def olderFailed (c : EventChunk) : List EventChunk :=
  (T.failedChunks c.communityId).filter fun d => d.recency < c.recency

/-- Those that have a record under the model. -/
def olderStuck (c : EventChunk) : Nat :=
  (T.olderFailed c).countP fun d => T.recorded model d.chunkId

/-- Those that have none. -/
def olderClearable (c : EventChunk) : Nat :=
  (T.olderFailed c).countP fun d => !T.recorded model d.chunkId

variable {T} {model}

theorem nodup_failedChunks (T : Tables) (community : String) : (T.failedChunks community).Nodup :=
  (List.perm_insertionSort _ _).nodup_iff.mpr (T.eventChunks.rows_nodup.filter _)

theorem pairwise_failedChunks (T : Tables) (community : String) :
    (T.failedChunks community).Pairwise fun a b => a.recency < b.recency := by
  have hsorted : (T.failedChunks community).Pairwise fun a b => a.recency ≤ b.recency :=
    List.pairwise_insertionSort _ _
  refine (hsorted.and (T.nodup_failedChunks community)).imp_of_mem fun ha hb ⟨hle, hne⟩ =>
    lt_of_le_of_ne hle fun he => ?_
  have hid := congrArg (fun r => (ofLex r).2) he
  exact hne (Table.eq_of_key (mem_failedChunks.mp ha).1 (mem_failedChunks.mp hb).1 hid)

/-- The older failed chunks stand before a chunk. -/
theorem failedChunks_eq_append {c : EventChunk} (hc : c ∈ T.failedChunks c.communityId) :
    ∃ post, T.failedChunks c.communityId = T.olderFailed c ++ c :: post := by
  obtain ⟨pre, post, hsplit⟩ := List.append_of_mem hc
  have hsorted := T.pairwise_failedChunks c.communityId
  rw [hsplit] at hsorted
  obtain ⟨-, hpost, hbefore⟩ := List.pairwise_append.mp hsorted
  have hpre : pre.filter (fun d => d.recency < c.recency) = pre :=
    List.filter_eq_self.mpr fun d hd => decide_eq_true (hbefore d hd c List.mem_cons_self)
  have hrest : (c :: post).filter (fun d => d.recency < c.recency) = [] := by
    refine List.filter_eq_nil_iff.mpr fun d hd hlt => ?_
    rcases List.mem_cons.mp hd with rfl | hd
    · exact lt_irrefl _ (of_decide_eq_true hlt)
    · exact lt_asymm (of_decide_eq_true hlt) ((List.pairwise_cons.mp hpost).1 d hd)
  refine ⟨post, ?_⟩
  rw [olderFailed, hsplit, List.filter_append, hpre, hrest, List.append_nil]

/-- What a retry of the first failed chunks leaves of them. -/
theorem failedChunks_retried {community : String} {limit : Nat} {T' : Tables}
    {groups : List RetryGroupOutcome}
    (h : Tables.Retried model ((T.failedChunks community).take limit) T groups T')
    (hstatus : T.Restatused T') : T'.failedChunks community =
      Backlog.round (fun c => T.recorded model c.chunkId) limit (T.failedChunks community) := by
  obtain ⟨f, hf⟩ := hstatus.chunks
  let cleared (c : EventChunk) : Bool :=
    c ∈ (T.failedChunks community).take limit ∧ T.recorded model c.chunkId = false
  have hrows : T'.eventChunks.rows =
      T.eventChunks.rows.map fun c => if cleared c then c.withStatus .ready else c := by
    rw [hf]
    refine List.map_congr_left fun c hc => ?_
    have hthere : c.withStatus (f c) ∈ T'.eventChunks := by
      rw [← Table.mem_rows, hf]
      exact List.mem_map_of_mem hc
    have hchunk := h.chunk c hc
    refine Table.eq_of_key hthere ?_ ?_
    · simpa [cleared] using hchunk
    · split <;> rfl
  have hkept : T.eventChunks.rows.filter ((fun c : EventChunk =>
        decide (c.communityId = community ∧ c.embeddingStatus = .failed)) ∘
        fun c => if cleared c then c.withStatus .ready else c) =
      T.eventChunks.rows.filter fun c =>
        !cleared c && decide (c.communityId = community ∧ c.embeddingStatus = .failed) := by
    refine List.filter_congr fun c _ => ?_
    by_cases hc : cleared c <;> simp [hc, EventChunk.withStatus]
  have hfailed : T'.failedChunks community =
      (T.failedChunks community).filter fun c => !cleared c := by
    rw [failedChunks, failedChunks, oldestFirst, oldestFirst, hrows, Ranking.filter_insertionSort,
      List.filter_map, List.filter_filter, hkept]
    refine congrArg _ ((List.map_congr_left fun c hc => ?_).trans (List.map_id _))
    obtain ⟨-, hc⟩ := List.mem_filter.mp hc
    rw [Bool.and_eq_true, Bool.not_eq_true'] at hc
    rw [hc.1]
    rfl
  rw [hfailed, Backlog.round, ← List.take_append_drop limit (T.failedChunks community),
    List.filter_append, List.take_append_drop]
  congr 1
  · refine List.filter_congr fun c hc => ?_
    simp [cleared, hc]
  · refine List.filter_eq_self.mpr fun c hc => ?_
    have hnot : c ∉ (T.failedChunks community).take limit := fun hmem =>
      List.disjoint_take_drop (T.nodup_failedChunks community) le_rfl hmem hc
    simp [cleared, hnot]

/-- What `k` rounds over the failed chunks of a community leave of the rows. -/
structure Drained (model community : String) (limit : Nat) (T : Tables) (k : Nat) (T' : Tables) :
    Prop where
  failed : T'.failedChunks community =
    (Backlog.round (fun c => T.recorded model c.chunkId) limit)^[k] (T.failedChunks community)
  recorded : ∀ c ∈ T'.failedChunks community,
    T'.recorded model c.chunkId = T.recorded model c.chunkId
  ready : ∀ c ∈ T.failedChunks community,
    c ∈ T'.failedChunks community ∨ c.withStatus .ready ∈ T'.eventChunks

theorem Drained.refl (model community : String) (limit : Nat) (T : Tables) :
    T.Drained model community limit 0 T :=
  ⟨rfl, fun _ _ => rfl, fun _ => .inl⟩

/-- One more retry. -/
theorem Drained.retried {community : String} {limit k : Nat} {T₁ T' : Tables}
    {groups : List RetryGroupOutcome} (h : T.Drained model community limit k T₁)
    (hr : Tables.Retried model ((T₁.failedChunks community).take limit) T₁ groups T')
    (hstatus : T₁.Restatused T') : T.Drained model community limit (k + 1) T' := by
  have hround := failedChunks_retried hr hstatus
  have hsub : (T'.failedChunks community).Sublist (T₁.failedChunks community) := by
    rw [hround]
    exact Backlog.round_sublist _
  refine ⟨?_, fun c hc => ?_, fun c hc => ?_⟩
  · rw [hround, Backlog.round_congr h.recorded, h.failed, Function.iterate_succ_apply']
  · rw [← h.recorded c (hsub.subset hc), Bool.eq_iff_iff, hr.record]
    refine ⟨fun hor => hor.elim id ?_, .inl⟩
    rintro ⟨d, hd, hid⟩
    have hlisted := hsub.subset hc
    obtain rfl := Table.eq_of_key (mem_failedChunks.mp (List.mem_of_mem_take hd)).1
      (mem_failedChunks.mp hlisted).1 hid
    rw [hround] at hc
    exact @Backlog.stuck_of_mem_round _ _ _ _ d (T₁.nodup_failedChunks community) hd hc
  · rcases h.ready c hc with hstill | hready
    · obtain ⟨hmem, hcommunity, hfailed⟩ := mem_failedChunks.mp hstill
      have hchunk := hr.chunk c hmem
      split at hchunk
      · exact .inr hchunk
      · exact .inl (mem_failedChunks.mpr ⟨hchunk, hcommunity, hfailed⟩)
    · have hchunk := hr.chunk _ hready
      rw [if_neg] at hchunk
      · exact .inr hchunk
      · rintro ⟨hd, -⟩
        cases (mem_failedChunks.mp (List.mem_of_mem_take hd)).2.2

/-- Which of the failed chunks the rounds made ready. -/
structure DrainedUpTo (model : String) (c : EventChunk) (limit k : Nat) (T T' : Tables) : Prop where
  ready : T.recorded model c.chunkId = false →
    T.olderClearable model c < k * (limit - T.olderStuck model c) →
    c.withStatus .ready ∈ T'.eventChunks
  recorded : T.recorded model c.chunkId = true → c ∈ T'.eventChunks
  starved : limit ≤ T.olderStuck model c → c ∈ T'.eventChunks
  unreached : k * limit ≤ (T.olderFailed c).length → c ∈ T'.eventChunks

theorem Drained.upTo {c : EventChunk} {limit k : Nat} {T' : Tables} (hc : c ∈ T.eventChunks)
    (hfailed : c.embeddingStatus = .failed) (h : T.Drained model c.communityId limit k T') :
    T.DrainedUpTo model c limit k T' := by
  have hlisted : c ∈ T.failedChunks c.communityId := mem_failedChunks.mpr ⟨hc, rfl, hfailed⟩
  obtain ⟨post, hsplit⟩ := failedChunks_eq_append hlisted
  have hstays : c ∈ (Backlog.round (fun c => T.recorded model c.chunkId) limit)^[k]
      (T.failedChunks c.communityId) → c ∈ T'.eventChunks := fun hmem => by
    rw [← h.failed] at hmem
    exact (mem_failedChunks.mp hmem).1
  refine ⟨fun hnone hlt => ?_, fun hrecorded => ?_, fun hle => ?_, fun hle => ?_⟩
  · refine (h.ready c hlisted).resolve_left ?_
    rw [h.failed, hsplit]
    exact Backlog.not_mem_rounds (hsplit ▸ T.nodup_failedChunks c.communityId) hnone hlt
  · exact hstays (Backlog.mem_rounds_of_stuck hlisted hrecorded)
  · rw [hsplit] at hstays
    exact hstays (Backlog.mem_rounds_of_starved hle)
  · rw [hsplit] at hstays
    exact hstays (Backlog.mem_rounds_of_length hle)

end Tables

section Runs

variable {kind : StoreKind} {engine : SearchEngine} {env : Env}
  {w : World (kind.backend engine).State} {client : EmbeddingClient} {community : String}

theorem Env.HealthyFrom.mono {n₀ n : Nat} (h : env.HealthyFrom n₀) (hn : n₀ ≤ n) :
    env.HealthyFrom n :=
  ⟨fun m hm => h.store m (hn.trans hm), fun m hm => h.embed m (hn.trans hm)⟩

/-- `k` retries in which nothing fails are `k` rounds. -/
theorem drained_retries (hs : Sound env w) (henv : env.HealthyFrom w.tick)
    (hcommunity : community ≠ "") (limit k : Nat) :
    Tables.Drained client.modelName community limit w.rows k
      (runAll (kind.backend engine) env w
        (.replicate k (.retry ⟨some client⟩ community (some limit)))).rows := by
  suffices h : Sound env (runAll (kind.backend engine) env w
      (.replicate k (.retry ⟨some client⟩ community (some limit)))) ∧
      w.tick ≤ (runAll (kind.backend engine) env w
        (.replicate k (.retry ⟨some client⟩ community (some limit)))).tick ∧ _ from h.2.2
  induction k with
  | zero => exact ⟨hs, le_rfl, .refl ..⟩
  | succ k ih =>
    obtain ⟨hs₁, hn, hdrained⟩ := ih
    rw [List.replicate_succ', runAll_append]
    obtain ⟨hs₂, hcont⟩ := Operation.run_spec hs₁
      (.retry ⟨some client⟩ community (some limit))
    obtain ⟨groups, -, hr⟩ := (retry_outcome hs₁ _ community (some limit)).retried_listed hs₁
      (henv.mono hn) hcommunity (by simp)
    refine ⟨hs₂, hn.trans ?_, hdrained.retried hr hcont.restatused⟩
    obtain ⟨es, hlog, -⟩ := hcont
    exact List.IsPrefix.length_le ⟨es, hlog.symm⟩

end Runs

/-- After any run, `k` retries with a limit in which nothing fails make a failed chunk of the
community ready when it has no record and fewer than `k * (limit - s)` older failed chunks without
one, `s` being the number of those with one. It stays failed when it has a record, when
`limit ≤ s`, or when `k * limit` failed chunks are older. -/
theorem limited_retries (kind : StoreKind) (engine : SearchEngine) (env : Env)
    (ops : List Operation) (client : EmbeddingClient) {community : String}
    (hcommunity : community ≠ "") (limit k : Nat) :
    let w := runAll (kind.backend engine) env (World.initial kind engine) ops
    let w' := runAll (kind.backend engine) env w
      (.replicate k (.retry ⟨some client⟩ community (some limit)))
    env.HealthyFrom w.tick → ∀ c ∈ w.rows.eventChunks, c.communityId = community →
      c.embeddingStatus = .failed →
      w.rows.DrainedUpTo client.modelName c limit k w'.rows := by
  rintro w w' henv c hc rfl hfailed
  exact (drained_retries (sound_run env ops) henv hcommunity limit k).upTo hc hfailed

/-- The provider answers from call `n₀` on. -/
def Env.outageUntil (n₀ : Nat) : Env :=
  { Env.steady with
    embed := fun n texts =>
      if n < n₀ then .error (.runtimeError "unreachable") else .ok (texts.map fun _ => [1]) }

theorem Env.outageUntil_healthyFrom {n₀ n : Nat} (h : n₀ ≤ n) :
    (Env.outageUntil n₀).HealthyFrom n where
  store _ _ _ := rfl
  embed _ hm texts := ⟨texts.map fun _ => [1], if_neg (Nat.not_lt.mpr (h.trans hm)),
    List.length_map _⟩

/-- Two notes whose embeddings failed, hence two failed chunks, and two retries of one chunk each. -/
theorem limited_retries_after_outage :
    let w := runAll (StoreKind.mock.backend .plain) (.outageUntil 24) (World.initial .mock .plain)
      [.ingest ⟨some ⟨"model", 1⟩⟩ (.plain .note "2026-05-09\nwalk" 0),
        .ingest ⟨some ⟨"model", 1⟩⟩ (.plain .note "2026-05-09\nrun" 1)]
    let w' := runAll (StoreKind.mock.backend .plain) (.outageUntil 24) w
      (.replicate 2 (.retry ⟨some ⟨"model", 1⟩⟩ "community" (some (1 : Nat))))
    (w.rows.failedChunks "community").map EventChunk.chunkText = ["walk", "run"] ∧
      ∀ c ∈ w.rows.eventChunks, c.communityId = "community" → c.embeddingStatus = .failed →
        w.rows.DrainedUpTo "model" c 1 2 w'.rows :=
  ⟨by decide +kernel, limited_retries .mock .plain (.outageUntil 24) _ ⟨"model", 1⟩ (by decide) 1 2
    (Env.outageUntil_healthyFrom (by decide +kernel))⟩

end DiaryMemory
