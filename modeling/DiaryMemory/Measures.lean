import DiaryMemory.Fusion
import DiaryMemory.Harness
import DiaryMemory.Operations
import DiaryMemory.Parsing
import Mathlib.Algebra.Order.Field.Basic
import Mathlib.Data.Rat.Cast.Order
import Mathlib.Tactic.FieldSimp

/-!
# What the harness reports

Recall grows with the window and is at most one, as the fusion returns no chunk twice
(`recallAtK_mono`, `recallAtK_le_one`). Recall and reciprocal rank over one window are positive
together (`recallAtK_pos_iff`, `reciprocalRank_pos_iff`), and a fused chunk comes from a leg.

The running sum of the fused leg counts the rows that `hitRate` counts (`FusedHits`) : the two
rates differ in their denominators only.
-/

namespace DiaryMemory

/-! ## What a procedure may return -/

/-- What the procedure returns satisfies `Q`, in every environment and from every state of the
store. -/
def Proc.Yields {α : Type} (B : Backend) (p : Proc α) (Q : α → Prop) : Prop :=
  ∀ (env : Env) (w : World B.State) (a : α) (w' : World B.State),
    p.exec B env w = (.ok a, w') → Q a

namespace Proc.Yields

variable {α β : Type} {B : Backend} {P : α → Prop} {Q : β → Prop}

theorem any (p : Proc α) : p.Yields B fun _ => True := fun _ _ _ _ _ => trivial

theorem pure {a : α} (h : P a) : (Pure.pure a : Proc α).Yields B P := by
  intro env w b w' hexec
  cases hexec
  exact h

theorem ofExcept (r : Except Exn α) : (Proc.ofExcept r).Yields B fun a => r = .ok a := by
  intro env w b w' hexec
  cases r with
  | ok a =>
    cases hexec
    rfl
  | error e => cases hexec

/-- What the store returns for a call. -/
theorem repo (c : RepoCall) :
    (Proc.repo c).Yields B fun v => ∃ s, (B.handle c s).1 = .ok v := by
  intro env w v w' hexec
  have hreply : (serveRepo B env c w).1 = .ok v := congrArg Prod.fst hexec
  unfold serveRepo at hreply
  split at hreply
  · cases hreply
  · exact ⟨w.store, hreply⟩

theorem bind {p : Proc α} {f : α → Proc β} (hp : p.Yields B P)
    (hf : ∀ a, P a → (f a).Yields B Q) : (p >>= f).Yields B Q := by
  intro env w b w' hexec
  rcases hrun : p.exec B env w with ⟨r, w₁⟩
  cases r with
  | ok a =>
    rw [Proc.exec_bind_ok hrun] at hexec
    exact hf a (hp env w a w₁ hrun) env w₁ b w' hexec
  | error e =>
    rw [Proc.exec_bind_error hrun] at hexec
    cases hexec

end Proc.Yields

/-- The legs return up to as many chunks as they are asked for. -/
structure Backend.KeepsLimit (B : Backend) : Prop where
  dense : ∀ queryEmbedding modelName scope s found,
    (B.handle (.denseCandidates queryEmbedding modelName scope) s).1 = .ok found →
      List.length (α := EventChunk) found ≤ scope.limit.toNat
  sparse : ∀ queryText scope s found,
    (B.handle (.sparseCandidates queryText scope) s).1 = .ok found →
      List.length (α := EventChunk) found ≤ scope.limit.toNat

section Limits

variable {engine : SearchEngine} {queryEmbedding : Vec} {modelName queryText : String}
  {scope : SearchScope} {found : List EventChunk}

theorem MockDomainStore.length_denseCandidates {store : MockDomainStore}
    (h : store.denseCandidates engine queryEmbedding modelName scope = .ok found) :
    found.length ≤ scope.limit.toNat := by
  rw [denseCandidates, requireCommunity_bind] at h
  split at h
  · cases h
  split at h
  · cases h
    exact Nat.zero_le _
  · obtain ⟨ranked, -, h⟩ := ok_of_bind h
    cases h
    rw [List.length_map]
    exact List.length_take_le _ _

theorem MockDomainStore.length_sparseCandidates {store : MockDomainStore}
    (h : store.sparseCandidates engine queryText scope = .ok found) :
    found.length ≤ scope.limit.toNat := by
  rw [sparseCandidates, requireCommunity_bind] at h
  split at h
  · cases h
  split at h
  · cases h
    exact Nat.zero_le _
  · cases h
    rw [List.length_map]
    exact List.length_take_le _ _

theorem SqlDomainStore.length_denseCandidates {dialect : SqlDialect} {T : Tables}
    (h : denseCandidates dialect engine queryEmbedding modelName scope T = .ok found) :
    found.length ≤ scope.limit.toNat := by
  cases dialect with
  | sqlite => cases h
  | postgres =>
    rw [denseCandidates, requireCommunity_bind] at h
    split at h
    · cases h
    split at h
    · cases h
      exact Nat.zero_le _
    · cases h
      rw [List.length_map]
      exact List.length_take_le _ _

theorem SqlDomainStore.length_sparseCandidates {dialect : SqlDialect} {T : Tables}
    (h : sparseCandidates dialect engine queryText scope T = .ok found) :
    found.length ≤ scope.limit.toNat := by
  cases dialect with
  | sqlite => cases h
  | postgres =>
    rw [sparseCandidates, requireCommunity_bind] at h
    split at h
    · cases h
    split at h
    · cases h
      exact Nat.zero_le _
    · cases h
      exact List.length_take_le _ _

end Limits

/-- The stores keep to the limit. -/
theorem StoreKind.keepsLimit (kind : StoreKind) (engine : SearchEngine) :
    (kind.backend engine).KeepsLimit := by
  cases kind with
  | mock =>
    exact ⟨fun _ _ _ _ _ => MockDomainStore.length_denseCandidates,
      fun _ _ _ _ => MockDomainStore.length_sparseCandidates⟩
  | sql dialect =>
    exact ⟨fun _ _ _ _ _ => SqlDomainStore.length_denseCandidates,
      fun _ _ _ _ => SqlDomainStore.length_sparseCandidates⟩

/-! ## Metrics -/

section Metrics

variable {expected : Finset String} {returned : List String} {k k' : Int}

theorem recallAtK_nonneg (expected : Finset String) (returned : List String) (k : Int) :
    0 ≤ recallAtK expected returned k := by
  unfold recallAtK
  split
  · exact le_rfl
  split
  · exact le_rfl
  · exact div_nonneg (Nat.cast_nonneg _) (Nat.cast_nonneg _)

/-- Recall grows with the window. -/
theorem recallAtK_mono (expected : Finset String) (returned : List String) (h : k ≤ k') :
    recallAtK expected returned k ≤ recallAtK expected returned k' := by
  by_cases hk : k ≤ 0
  · rw [recallAtK, if_pos hk]
    exact recallAtK_nonneg expected returned k'
  have hk' : ¬ k' ≤ 0 := by omega
  rw [recallAtK, recallAtK, if_neg hk, if_neg hk']
  split
  · exact le_rfl
  · have hwindow : (returned.take k.toNat).Sublist (returned.take k'.toNat) :=
      (List.take_prefix_take_left (Int.toNat_le_toNat h)).sublist
    exact div_le_div_of_nonneg_right (by exact_mod_cast hwindow.countP_le) (Nat.cast_nonneg _)

/-- A list without duplicates holds each expected chunk once at most. -/
theorem countP_le_card (hn : returned.Nodup) :
    (returned.countP fun cid => cid ∈ expected) ≤ expected.card := by
  have hsubset : (returned.filter fun cid => cid ∈ expected).toFinset ⊆ expected := fun cid hcid =>
    of_decide_eq_true (List.mem_filter.mp (List.mem_toFinset.mp hcid)).2
  calc (returned.countP fun cid => cid ∈ expected)
      = (returned.filter fun cid => cid ∈ expected).length := List.countP_eq_length_filter
    _ = (returned.filter fun cid => cid ∈ expected).toFinset.card :=
        (List.toFinset_card_of_nodup (hn.filter _)).symm
    _ ≤ expected.card := Finset.card_le_card hsubset

theorem recallAtK_le_one (hn : returned.Nodup) (k : Int) : recallAtK expected returned k ≤ 1 := by
  unfold recallAtK
  split
  · exact zero_le_one
  split
  · exact zero_le_one
  · have hcount := @countP_le_card expected _ (hn.sublist (List.take_sublist k.toNat returned))
    exact div_le_one_of_le₀ (by exact_mod_cast hcount) (Nat.cast_nonneg _)

/-- The recall is positive when the window holds an expected chunk. -/
theorem recallAtK_pos_iff :
    0 < recallAtK expected returned k ↔ ∃ cid ∈ returned.take k.toNat, cid ∈ expected := by
  unfold recallAtK
  split
  · next hk => simp [Int.toNat_of_nonpos hk]
  split
  · next hempty => simp [hempty]
  · next hempty =>
    have hcard : (0 : ℚ) < expected.card := by
      exact_mod_cast Finset.card_pos.mpr (Finset.nonempty_iff_ne_empty.mpr hempty)
    rw [div_pos_iff_of_pos_right hcard, Nat.cast_pos, List.countP_pos_iff]
    simp

theorem isSome_rankFrom (rank : Nat) :
    (rankFrom expected rank returned).isSome ↔ ∃ cid ∈ returned, cid ∈ expected := by
  induction returned generalizing rank with
  | nil => simp [rankFrom]
  | cons cid rest ih =>
    rw [rankFrom]
    split
    · next h => exact iff_of_true rfl ⟨cid, List.mem_cons_self, h⟩
    · next h => simp [ih, h]

/-- A first rank exists when the window holds an expected chunk. -/
theorem isSome_firstRelevantRank : (firstRelevantRank expected returned k).isSome ↔
    ∃ cid ∈ returned.take k.toNat, cid ∈ expected := by
  unfold firstRelevantRank
  split
  · next h =>
    rcases h with hk | hempty
    · simp [Int.toNat_of_nonpos hk]
    · simp [hempty]
  · exact isSome_rankFrom 1

theorem le_of_rankFrom {rank r : Nat} (h : rankFrom expected rank returned = some r) :
    rank ≤ r := by
  induction returned generalizing rank with
  | nil => cases h
  | cons cid rest ih =>
    rw [rankFrom] at h
    split at h
    · exact (Option.some.inj h).le
    · exact Nat.le_of_succ_le (ih h)

/-- Ranks start from one, so a first rank has a positive reciprocal. -/
theorem reciprocalRank_pos_iff :
    0 < reciprocalRank (firstRelevantRank expected returned k) ↔
      (firstRelevantRank expected returned k).isSome := by
  cases hrank : firstRelevantRank expected returned k with
  | none => simp [reciprocalRank]
  | some rank =>
    have hpos : 1 ≤ rank := by
      unfold firstRelevantRank at hrank
      split at hrank
      · cases hrank
      · exact le_of_rankFrom hrank
    have hcast : (0 : ℚ) < rank := by exact_mod_cast hpos
    exact iff_of_true (one_div_pos.mpr hcast) rfl

end Metrics

/-! ## One query -/

/-- The ids of the fused chunks are ids of the legs. -/
theorem mem_legs_of_fusion {dense sparse : List EventChunk} {fused : List FusedHit} {topK k : Int}
    (hfused : reciprocalRankFusion [dense, sparse] topK k = .ok fused) {cid : String}
    (h : cid ∈ fused.map FusedHit.chunkId) :
    cid ∈ dense.map EventChunk.chunkId ∨ cid ∈ sparse.map EventChunk.chunkId := by
  obtain ⟨hit, hhit, rfl⟩ := List.mem_map.mp h
  obtain ⟨leg, hleg, hchunk⟩ := mem_of_mem_fusion hfused hhit
  have hid := List.mem_map_of_mem (f := EventChunk.chunkId) hchunk
  rcases List.mem_cons.mp hleg with rfl | hleg
  · exact .inl hid
  · obtain rfl := List.mem_singleton.mp hleg
    exact .inr hid

/-- The relations between the numbers of a row. -/
structure PerQueryResult.Consistent (row : PerQueryResult) : Prop where
  nonneg : 0 ≤ row.recallAt5
  wider : row.recallAt5 ≤ row.recallAt10
  widest : row.recallAt10 ≤ row.recallAt20
  le_one : row.recallAt20 ≤ 1
  found : 0 < row.recallAt20 ↔ 0 < row.reciprocalRankInFused
  ranked : 0 < row.reciprocalRankInFused ↔ row.firstRelevantRankInFused.isSome
  /-- An expected chunk that is fused is in a leg. -/
  returned : row.firstRelevantRankInFused.isSome →
    ∃ cid ∈ row.expectedChunkIds, cid ∈ row.denseTopKIds ∨ cid ∈ row.sparseTopKIds
  /-- It has a rank there, when the legs keep to the limit of twenty chunks they are asked for. -/
  legRanked : row.denseTopKIds.length ≤ 20 → row.sparseTopKIds.length ≤ 20 →
    row.firstRelevantRankInFused.isSome →
      row.firstRelevantRankInDense.isSome ∨ row.firstRelevantRankInSparse.isSome

section Row

variable {gq : GoldQuery} {expectedIds : List String} {dense sparse : List EventChunk}
  {fused : List FusedHit}

/-- A fused rank comes from an expected chunk of a leg. -/
theorem exists_leg_of_rank {candidateK topK k : Int}
    (hfused : reciprocalRankFusion [dense, sparse] topK k = .ok fused)
    (h : (firstRelevantRank expectedIds.toFinset (fused.map FusedHit.chunkId) candidateK).isSome) :
    ∃ cid ∈ expectedIds,
      cid ∈ dense.map EventChunk.chunkId ∨ cid ∈ sparse.map EventChunk.chunkId := by
  obtain ⟨cid, hcid, hexpected⟩ := isSome_firstRelevantRank.mp h
  exact ⟨cid, List.mem_toFinset.mp hexpected,
    mem_legs_of_fusion hfused (List.mem_of_mem_take hcid)⟩

/-- In a leg of at most twenty chunks, every expected chunk has a rank. -/
theorem isSome_rank_of_mem {leg : List String} {cid : String} (hlength : leg.length ≤ 20)
    (hcid : cid ∈ leg) (hexpected : cid ∈ expectedIds) :
    (firstRelevantRank expectedIds.toFinset leg 20).isSome := by
  refine isSome_firstRelevantRank.mpr ⟨cid, ?_, List.mem_toFinset.mpr hexpected⟩
  change cid ∈ leg.take 20
  rwa [List.take_of_length_le hlength]

theorem consistent_perQueryResult {topK k : Int}
    (hfused : reciprocalRankFusion [dense, sparse] topK k = .ok fused) :
    (perQueryResult 20 gq expectedIds dense sparse fused).Consistent where
  nonneg := recallAtK_nonneg _ _ _
  wider := recallAtK_mono _ _ (by decide)
  widest := recallAtK_mono _ _ (by decide)
  le_one := recallAtK_le_one (nodup_fusion hfused) 20
  found := recallAtK_pos_iff.trans
    (isSome_firstRelevantRank.symm.trans reciprocalRank_pos_iff.symm)
  ranked := reciprocalRank_pos_iff
  returned := exists_leg_of_rank hfused
  legRanked hdense hsparse h := by
    obtain ⟨cid, hexpected, hcid | hcid⟩ := exists_leg_of_rank hfused h
    · exact .inl (isSome_rank_of_mem hdense hcid hexpected)
    · exact .inr (isSome_rank_of_mem hsparse hcid hexpected)

end Row

/-! ## The gold set -/

/-- A row that found an expected chunk. -/
def PerQueryResult.hit (row : PerQueryResult) : Bool :=
  row.firstRelevantRankInFused.isSome && row.expectedChunkIds ≠ []

/-- The running sum of the fused leg counts the rows that found an expected chunk. -/
def HarnessSums.FusedHits (sums : HarnessSums) : Prop :=
  sums.sumFusedRecallAt20 = sums.perQueryRows.countP PerQueryResult.hit

theorem HarnessSums.FusedHits.add {sums : HarnessSums} (h : sums.FusedHits)
    (row : PerQueryResult) : (sums.add row).FusedHits := by
  change sums.sumFusedRecallAt20 + legRecall row.firstRelevantRankInFused row.expectedChunkIds =
    ((sums.perQueryRows ++ [row]).countP PerQueryResult.hit : ℚ)
  rw [h, List.countP_append, List.countP_singleton, Nat.cast_add]
  congr 1
  unfold legRecall PerQueryResult.hit
  split <;> simp_all

/-- The hits are those of the queries with expected chunks, and the rate is their share of them. -/
theorem hitRate_mul (rows : List PerQueryResult) :
    hitRate rows * (rows.countP fun r => r.expectedChunkIds ≠ []) =
      rows.countP PerQueryResult.hit := by
  have hhits : rows.countP PerQueryResult.hit =
      (rows.filter fun r => r.expectedChunkIds ≠ []).countP
        fun r => r.firstRelevantRankInFused.isSome := by
    rw [List.countP_filter]
    rfl
  rw [hhits, List.countP_eq_length_filter, hitRate]
  split
  · next h => rw [h, List.countP_nil, List.length_nil, zero_mul, Nat.cast_zero]
  · next h =>
    have hlength : ((rows.filter fun r => r.expectedChunkIds ≠ []).length : ℚ) ≠ 0 := by
      exact_mod_cast fun hzero => h (List.length_eq_zero_iff.mp hzero)
    exact div_mul_cancel₀ _ hlength

namespace Harness

variable {harness : Harness}

/-- What the row of a gold query satisfies, over a backend. -/
structure Measures (harness : Harness) (B : Backend) (gq : GoldQuery) (row : PerQueryResult) :
    Prop where
  expected : harness.resolve gq.expectedHandles = .ok row.expectedChunkIds
  consistent : row.Consistent
  limited : B.KeepsLimit → row.denseTopKIds.length ≤ 20 ∧ row.sparseTopKIds.length ≤ 20

theorem yields_runQuery (hk : harness.candidateK = 20) (B : Backend) (gq : GoldQuery) :
    (harness.runQuery gq).Yields B (harness.Measures B gq) := by
  unfold runQuery
  refine (Proc.Yields.ofExcept _).bind fun expectedIds hids => ?_
  refine (Proc.Yields.any _).bind fun queryEmbedding _ => ?_
  refine (Proc.Yields.repo _).bind fun dense ⟨_, hdense⟩ => ?_
  refine (Proc.Yields.repo _).bind fun sparse ⟨_, hsparse⟩ => ?_
  refine (Proc.Yields.ofExcept _).bind fun fused hfused => ?_
  rw [hk] at hdense hsparse ⊢
  refine .pure ⟨hids, consistent_perQueryResult hfused, fun hB => ?_⟩
  exact ⟨(List.length_map _).trans_le (hB.dense _ _ _ _ _ hdense),
    (List.length_map _).trans_le (hB.sparse _ _ _ _ hsparse)⟩

/-- A run of the loop adds one row per query, and keeps the count of the hits. -/
theorem yields_runQueries {B : Backend} {R : GoldQuery → PerQueryResult → Prop}
    (hR : ∀ gq, (harness.runQuery gq).Yields B (R gq)) (gold : List GoldQuery)
    {sums : HarnessSums} (h : sums.FusedHits) :
    (harness.runQueries gold sums).Yields B fun sums' => sums'.FusedHits ∧
      ∃ rows, sums'.perQueryRows = sums.perQueryRows ++ rows ∧ List.Forall₂ R gold rows := by
  induction gold generalizing sums with
  | nil => exact .pure ⟨h, [], (List.append_nil _).symm, .nil⟩
  | cons gq gold ih =>
    refine (hR gq).bind fun row hrow => ?_
    intro env w sums' w' hexec
    obtain ⟨hhits, rows, hrows, hall⟩ := ih (h.add row) env w sums' w' hexec
    exact ⟨hhits, row :: rows, hrows.trans (List.append_assoc _ _ _), .cons hrow hall⟩

/-- A report has one row per query, and the sum of the fused leg counts their hits. -/
theorem yields_runHarness {B : Backend} {R : GoldQuery → PerQueryResult → Prop}
    (hR : ∀ gq, (harness.runQuery gq).Yields B (R gq)) (gold : List GoldQuery) :
    (harness.runHarness gold).Yields B fun report => List.Forall₂ R gold report.perQuery ∧
      ∃ sums : HarnessSums, sums.FusedHits ∧ sums.perQueryRows = report.perQuery ∧
        report.aggregate = sums.aggregate (if gold.length = 0 then 1 else gold.length) := by
  have hstart : HarnessSums.FusedHits {} := rfl
  refine (yields_runQueries hR gold hstart).bind fun sums ⟨hhits, rows, hrows, hall⟩ => .pure ?_
  obtain rfl : sums.perQueryRows = rows := hrows
  exact ⟨hall, sums, hhits, rfl, rfl⟩

/-- A query has expected chunks when it has expected handles. -/
theorem resolve_eq_nil_iff {handles ids : List String} (h : harness.resolve handles = .ok ids) :
    ids = [] ↔ handles = [] := by
  cases handles with
  | nil =>
    cases h
    exact iff_of_true rfl rfl
  | cons handle rest =>
    refine iff_of_false ?_ (List.cons_ne_nil _ _)
    rintro rfl
    rw [resolve] at h
    split at h
    · cases h
    · cases hrest : harness.resolve rest with
      | error e =>
        rw [hrest] at h
        cases h
      | ok ids =>
        rw [hrest] at h
        cases h

/-- As many rows as gold queries have expected chunks. -/
theorem countP_answerable {B : Backend} {gold : List GoldQuery} {rows : List PerQueryResult}
    (h : List.Forall₂ (harness.Measures B) gold rows) :
    (rows.countP fun r => r.expectedChunkIds ≠ []) =
      gold.countP fun gq => gq.expectedHandles ≠ [] := by
  induction h with
  | nil => rfl
  | cons hrow _ ih =>
    rw [List.countP_cons, List.countP_cons, ih]
    simp only [ne_eq, resolve_eq_nil_iff hrow.expected]

/-- With twenty candidates, every row of a report is consistent, and the recall of the fused leg
over all queries is the hit rate over the queries with expected chunks. -/
theorem consistent_runHarness (harness : Harness) (hk : harness.candidateK = 20)
    (gold : List GoldQuery) (B : Backend) (env : Env) (w w' : World B.State)
    (report : HarnessReport) (h : (harness.runHarness gold).exec B env w = (.ok report, w')) :
    List.Forall₂ (harness.Measures B) gold report.perQuery ∧
      report.aggregate.perLegRecallAt20.fused * gold.length =
        report.aggregate.hitRate * gold.countP fun gq => gq.expectedHandles ≠ [] := by
  obtain ⟨hall, sums, hhits, hrows, haggregate⟩ :=
    yields_runHarness (yields_runQuery hk B) gold env w report w' h
  refine ⟨hall, ?_⟩
  rw [haggregate, ← countP_answerable hall, ← hrows]
  change sums.sumFusedRecallAt20 / _ * (gold.length : ℚ) = hitRate sums.perQueryRows * _
  rw [hitRate_mul, ← hhits]
  split
  · next hempty =>
    have hnone : sums.perQueryRows = [] := by
      rw [hrows]
      exact List.length_eq_zero_iff.mp (hall.length_eq.symm.trans hempty)
    rw [hhits, hnone, List.countP_nil, Nat.cast_zero, zero_div, zero_mul]
  · next hsome => exact div_mul_cancel₀ _ (Nat.cast_ne_zero.mpr hsome)

/-- A run over one handle. -/
def plain : Harness where
  mode := "mock"
  handlesToChunkIds := Table.empty.put ("1#0", "walk")
  embeddingModelName := "model"
  queryEmbeddingLookup _ := pure [1]
  corpusSize := 1
  reprStr s := "'" ++ s ++ "'"

/-- Two queries, one of them without expected chunks. -/
def plainGold : List GoldQuery := [⟨"community", "walk", ["1#0", "1#0"]⟩, ⟨"community", "swim", []⟩]

/-- A store of one chunk. -/
def plainWorld : World (StoreKind.mock.backend .plain).State where
  store := { eventChunks := Table.empty.put (walkChunk "walk") }

/-- The chunk is found by the sparse leg : one hit of one query with expected chunks, and of two
queries. -/
theorem consistent_runHarness_hit : ∃ report,
    ((plain.runHarness plainGold).exec _ .steady plainWorld).1.toOption = some report ∧
      report.aggregate.hitRate = 1 ∧ report.aggregate.perLegRecallAt20.fused * 2 = 1 ∧
      List.Forall₂ (plain.Measures (StoreKind.mock.backend .plain)) plainGold report.perQuery := by
  obtain ⟨report, hreport⟩ : ∃ report,
      ((plain.runHarness plainGold).exec _ .steady plainWorld).1.toOption = some report :=
    Option.isSome_iff_exists.mp (by decide +kernel)
  have hrate : (((plain.runHarness plainGold).exec _ .steady plainWorld).1.toOption.map
      fun report => report.aggregate.hitRate) = some 1 := by
    decide +kernel
  rw [hreport] at hrate
  have hrate' : report.aggregate.hitRate = 1 := Option.some.inj hrate
  obtain ⟨hall, hrates⟩ := consistent_runHarness plain rfl plainGold _ _ _ _ report
    (Prod.ext (ok_of_toOption hreport) rfl)
  refine ⟨report, hreport, hrate', ?_, hall⟩
  rw [hrate', one_mul] at hrates
  exact hrates

end Harness

end DiaryMemory
