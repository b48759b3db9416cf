import DiaryMemory.Retrieval
import DiaryMemory.Ranking
import Mathlib.Algebra.Order.BigOperators.Group.List
import Mathlib.Algebra.Order.Field.Basic
import Mathlib.Tactic.Linarith

/-!
# What the fusion computes

The score of a chunk is the sum over all its occurrences (`rrfScore`), whatever the lists have in
common. `reciprocalRankFusion` returns the first `topK` of the distinct chunks in the order of
`SortsBefore` : the greater score first, ties by the first appearance in the lists, read one after
the other.
-/

namespace DiaryMemory

/-! ## The specification -/

/-- The chunks of the lists with their ranks, read list by list. -/
def occurrences (rankings : List (List EventChunk)) : List (EventChunk × Nat) :=
  rankings.flatMap fun ranking => ranking.zipIdx 1

/-- The ids of the chunks of the lists, read list by list. -/
def rankedIds (rankings : List (List EventChunk)) : List String :=
  rankings.flatten.map EventChunk.chunkId

/-- The sum of `1 / (k + rank)` over the occurrences of the id among `seen`. -/
def scoreOf (k : Int) (seen : List (EventChunk × Nat)) (id : String) : ℚ :=
  ((seen.filter fun e => e.1.chunkId = id).map fun e => 1 / ((k : ℚ) + e.2)).sum

/-- The sum of `1 / (k + rank)` over all occurrences of the id. -/
def rrfScore (k : Int) (rankings : List (List EventChunk)) (id : String) : ℚ :=
  scoreOf k (occurrences rankings) id

/-- The place where the id first appears, in the lists read one after the other. -/
def appearance (rankings : List (List EventChunk)) (id : String) : Nat :=
  (rankedIds rankings).idxOf id

/-- The order of the result : by descending score, ties by the first appearance. -/
def SortsBefore (k : Int) (rankings : List (List EventChunk)) (id id' : String) : Prop :=
  rrfScore k rankings id' < rrfScore k rankings id ∨
    rrfScore k rankings id = rrfScore k rankings id' ∧
      appearance rankings id < appearance rankings id'

instance (k : Int) (rankings : List (List EventChunk)) : DecidableRel (SortsBefore k rankings) :=
  fun _ _ => inferInstanceAs (Decidable (_ ∨ _ ∧ _))

theorem SortsBefore.asymm {k : Int} {rankings : List (List EventChunk)} :
    ∀ id id', SortsBefore k rankings id id' → ¬ SortsBefore k rankings id' id := by
  rintro id id' (h | ⟨h, happ⟩) (h' | ⟨h', happ'⟩)
  · exact lt_asymm h h'
  · exact h.ne h'
  · exact h'.ne h
  · exact lt_asymm happ happ'

/-! ## The scores -/

section Scores

variable {k : Int} {seen more : List (EventChunk × Nat)} {id : String}

theorem scoreOf_append : scoreOf k (seen ++ more) id = scoreOf k seen id + scoreOf k more id := by
  simp [scoreOf]

theorem scoreOf_of_not_mem (h : id ∉ seen.map fun e => e.1.chunkId) : scoreOf k seen id = 0 := by
  have hnone : (seen.filter fun e => e.1.chunkId = id) = [] := by
    refine List.filter_eq_nil_iff.mpr fun e he hid => h ?_
    exact of_decide_eq_true hid ▸ List.mem_map_of_mem (f := fun e => e.1.chunkId) he
  rw [scoreOf, hnone, List.map_nil, List.sum_nil]

theorem scoreOf_singleton (e : EventChunk × Nat) :
    scoreOf k [e] id = if e.1.chunkId = id then rrfLegScore e.2 k else 0 := by
  unfold scoreOf rrfLegScore
  split
  · next h => simp [h]
  · next h => simp [h]

theorem map_id_zipIdx (ranking : List EventChunk) (start : Nat) :
    (ranking.zipIdx start).map (fun e => e.1.chunkId) = ranking.map EventChunk.chunkId :=
  calc (ranking.zipIdx start).map (fun e => e.1.chunkId)
      = ((ranking.zipIdx start).map Prod.fst).map EventChunk.chunkId := (List.map_map ..).symm
    _ = ranking.map EventChunk.chunkId := by rw [List.zipIdx_map_fst]

theorem map_id_occurrences (rankings : List (List EventChunk)) :
    (occurrences rankings).map (fun e => e.1.chunkId) = rankedIds rankings := by
  induction rankings with
  | nil => rfl
  | cons ranking rankings ih =>
    rw [occurrences, List.flatMap_cons, List.map_append, rankedIds, List.flatten_cons,
      List.map_append]
    exact congrArg₂ _ (map_id_zipIdx ranking 1) ih

end Scores

/-! ## Lists without duplicates -/

/-- What one list adds to the score of the id. -/
def legScore (k : Int) (ranking : List EventChunk) (id : String) : ℚ :=
  scoreOf k (ranking.zipIdx 1) id

theorem rrfScore_eq_sum (k : Int) (rankings : List (List EventChunk)) (id : String) :
    rrfScore k rankings id = (rankings.map fun ranking => legScore k ranking id).sum := by
  rw [rrfScore]
  induction rankings with
  | nil => rfl
  | cons ranking rankings ih =>
    rw [occurrences, List.flatMap_cons, scoreOf_append, List.map_cons, List.sum_cons]
    exact congrArg _ ih

section Distinct

variable {k : Int} {id id' : String} {ranking ranking' : List EventChunk}

theorem scoreOf_zipIdx (hn : (ranking.map EventChunk.chunkId).Nodup) (start : Nat) :
    scoreOf k (ranking.zipIdx start) id =
      if id ∈ ranking.map EventChunk.chunkId then
        rrfLegScore (start + (ranking.map EventChunk.chunkId).idxOf id) k
      else 0 := by
  induction ranking generalizing start with
  | nil => rfl
  | cons chunk ranking ih =>
    obtain ⟨hchunk, hn⟩ := List.nodup_cons.mp hn
    rw [List.zipIdx_cons, ← List.singleton_append, scoreOf_append, scoreOf_singleton, ih hn,
      List.map_cons]
    by_cases hid : chunk.chunkId = id
    · subst hid
      rw [if_pos rfl, if_neg hchunk, if_pos List.mem_cons_self, List.idxOf_cons_self, add_zero,
        add_zero]
    · rw [if_neg hid, zero_add, List.idxOf_cons_ne _ hid]
      simp only [List.mem_cons, Ne.symm hid, false_or]
      rw [Nat.succ_eq_add_one, Nat.add_right_comm, Nat.add_assoc]

/-- The score of the place of the id. -/
theorem legScore_of_mem (hn : (ranking.map EventChunk.chunkId).Nodup)
    (hid : id ∈ ranking.map EventChunk.chunkId) :
    legScore k ranking id = rrfLegScore (1 + (ranking.map EventChunk.chunkId).idxOf id) k := by
  rw [legScore, scoreOf_zipIdx hn, if_pos hid]

theorem legScore_of_not_mem (hid : id ∉ ranking.map EventChunk.chunkId) :
    legScore k ranking id = 0 :=
  scoreOf_of_not_mem (by rwa [map_id_zipIdx])

theorem rrfLegScore_pos (hk : 0 < k) (rank : Nat) : 0 < rrfLegScore rank k := by
  have hkq : (0 : ℚ) < k := by exact_mod_cast hk
  have hrank : (0 : ℚ) ≤ rank := by exact_mod_cast rank.zero_le
  exact one_div_pos.mpr (by linarith)

/-- The score falls with the rank. -/
theorem rrfLegScore_lt (hk : 0 < k) {rank rank' : Nat} (h : rank < rank') :
    rrfLegScore rank' k < rrfLegScore rank k := by
  have hkq : (0 : ℚ) < k := by exact_mod_cast hk
  have hrank : (0 : ℚ) ≤ rank := by exact_mod_cast rank.zero_le
  have hlt : (rank : ℚ) < rank' := by exact_mod_cast h
  exact one_div_lt_one_div_of_lt (by linarith) (by linarith)

theorem rrfLegScore_le (hk : 0 < k) {rank rank' : Nat} (h : rank ≤ rank') :
    rrfLegScore rank' k ≤ rrfLegScore rank k := by
  rcases h.eq_or_lt with rfl | hlt
  · exact le_rfl
  · exact (rrfLegScore_lt hk hlt).le

end Distinct

/-! ## The accumulated table -/

/-- The table after the occurrences `seen` : the ids in the order of their first appearance, each
with its first chunk and the sum of its scores. -/
structure Fuses (k : Int) (seen : List (EventChunk × Nat)) (fused : Table FusedHit.chunkId) :
    Prop where
  ids : fused.rows.map FusedHit.chunkId = (seen.map fun e => e.1.chunkId).eraseDups
  score : ∀ h ∈ fused, h.score = scoreOf k seen h.chunkId
  chunk : ∀ h ∈ fused, (seen.find? fun e => e.1.chunkId = h.chunkId).map Prod.fst = some h.chunk

namespace Fuses

variable {k : Int} {seen : List (EventChunk × Nat)} {fused : Table FusedHit.chunkId}

theorem empty (k : Int) : Fuses k [] .empty where
  ids := rfl
  score _ h := absurd h Table.not_mem_empty
  chunk _ h := absurd h Table.not_mem_empty

theorem exists_iff (h : Fuses k seen fused) {id : String} :
    (∃ hit ∈ fused, hit.chunkId = id) ↔ id ∈ seen.map fun e => e.1.chunkId := by
  rw [← List.mem_eraseDups, ← h.ids, List.mem_map]
  rfl

/-- A first occurrence. -/
theorem put_new (h : Fuses k seen fused) {rank : Nat} {chunk : EventChunk}
    (hnew : ∀ hit ∈ fused, hit.chunkId ≠ chunk.chunkId) :
    Fuses k (seen ++ [(chunk, rank)]) (fused.put ⟨chunk, rrfLegScore rank k⟩) := by
  have hunseen : chunk.chunkId ∉ seen.map fun e => e.1.chunkId := fun hmem => by
    obtain ⟨hit, hhit, hid⟩ := h.exists_iff.mpr hmem
    exact hnew hit hhit hid
  have hunfound : (seen.find? fun e => e.1.chunkId = chunk.chunkId) = none := by
    refine List.find?_eq_none.mpr fun e he hid => hunseen ?_
    exact of_decide_eq_true hid ▸ List.mem_map_of_mem (f := fun e => e.1.chunkId) he
  refine ⟨?_, fun hit hhit => ?_, fun hit hhit => ?_⟩
  · rw [Table.rows_put_of_fresh hnew, List.map_append, h.ids, List.map_append, List.map_singleton,
      List.map_singleton, Grouping.eraseDups_concat, if_neg hunseen]
    rfl
  · rw [scoreOf_append, scoreOf_singleton]
    rcases Table.mem_put.mp hhit with rfl | ⟨hhit, hne⟩
    · change rrfLegScore rank k = scoreOf k seen chunk.chunkId + _
      rw [scoreOf_of_not_mem hunseen, zero_add]
      exact (if_pos rfl).symm
    · change hit.chunkId ≠ chunk.chunkId at hne
      rw [if_neg hne.symm, add_zero, h.score hit hhit]
  · rw [List.find?_append]
    rcases Table.mem_put.mp hhit with rfl | ⟨hhit, hne⟩
    · change ((seen.find? fun e => e.1.chunkId = chunk.chunkId).or _).map Prod.fst = some chunk
      rw [hunfound]
      simp [FusedHit.chunkId]
    · obtain ⟨e, he, hchunk⟩ := Option.map_eq_some_iff.mp (h.chunk hit hhit)
      rw [he]
      exact congrArg some hchunk

/-- A further occurrence. -/
theorem put_again (h : Fuses k seen fused) {rank : Nat} {chunk : EventChunk} {old : FusedHit}
    (hold : old ∈ fused) (hid : old.chunkId = chunk.chunkId) :
    Fuses k (seen ++ [(chunk, rank)]) (fused.put ⟨old.chunk, old.score + rrfLegScore rank k⟩) := by
  have hseen : chunk.chunkId ∈ seen.map fun e => e.1.chunkId :=
    h.exists_iff.mp ⟨old, hold, hid⟩
  refine ⟨?_, fun hit hhit => ?_, fun hit hhit => ?_⟩
  · have hkeys : (fused.put ⟨old.chunk, old.score + rrfLegScore rank k⟩).rows.map FusedHit.chunkId =
        fused.rows.map FusedHit.chunkId :=
      Table.map_key_putRow_of_mem fused.nodup ⟨old, hold, rfl⟩
    rw [hkeys, h.ids, List.map_append, List.map_singleton, Grouping.eraseDups_concat,
      if_pos hseen]
  · rw [scoreOf_append, scoreOf_singleton]
    rcases Table.mem_put.mp hhit with rfl | ⟨hhit, hne⟩
    · change old.score + rrfLegScore rank k = scoreOf k seen old.chunkId +
        if chunk.chunkId = old.chunkId then rrfLegScore rank k else 0
      rw [if_pos hid.symm, h.score old hold]
    · change hit.chunkId ≠ old.chunkId at hne
      rw [if_neg fun he => hne (he.symm.trans hid.symm), add_zero, h.score hit hhit]
  · rw [List.find?_append]
    rcases Table.mem_put.mp hhit with rfl | ⟨hhit, hne⟩
    · obtain ⟨e, he, hchunk⟩ := Option.map_eq_some_iff.mp (h.chunk old hold)
      change ((seen.find? fun e => e.1.chunkId = old.chunkId).or _).map Prod.fst = some old.chunk
      rw [he]
      exact congrArg some hchunk
    · obtain ⟨e, he, hchunk⟩ := Option.map_eq_some_iff.mp (h.chunk hit hhit)
      rw [he]
      exact congrArg some hchunk

/-- One more occurrence. -/
theorem addRank (h : Fuses k seen fused) (rank : Nat) (chunk : EventChunk) :
    Fuses k (seen ++ [(chunk, rank)]) (addRank k rank fused chunk) := by
  unfold DiaryMemory.addRank
  cases hf : fused.find? chunk.chunkId with
  | none => exact h.put_new (Table.find?_eq_none_iff.mp hf)
  | some old => exact h.put_again (Table.mem_of_find? hf) (Table.find?_eq_some_iff.mp hf).2

theorem addRanking (h : Fuses k seen fused) (rank : Nat) (chunks : List EventChunk) :
    Fuses k (seen ++ chunks.zipIdx rank) (addRanking k rank fused chunks) := by
  induction chunks generalizing rank seen fused with
  | nil => rwa [List.zipIdx_nil, List.append_nil]
  | cons chunk chunks ih =>
    rw [List.zipIdx_cons, List.append_cons]
    exact ih (h.addRank rank chunk) (rank + 1)

theorem foldl_addRanking (h : Fuses k seen fused) (rankings : List (List EventChunk)) :
    Fuses k (seen ++ occurrences rankings) (rankings.foldl (DiaryMemory.addRanking k 1) fused) := by
  induction rankings generalizing seen fused with
  | nil => rwa [occurrences, List.flatMap_nil, List.append_nil]
  | cons ranking rankings ih =>
    rw [occurrences, List.flatMap_cons, ← List.append_assoc]
    exact ih (h.addRanking 1 ranking)

end Fuses

/-- The accumulated table is the table of all occurrences. -/
theorem fuses_fuseRankings (k : Int) (rankings : List (List EventChunk)) :
    Fuses k (occurrences rankings) (fuseRankings k rankings) :=
  (Fuses.empty k).foldl_addRanking rankings

/-! ## The order of the result -/

/-- The distinct ids in the order of the result. -/
def orderedIds (k : Int) (rankings : List (List EventChunk)) : List String :=
  (newestFirst FusedHit.score (fuseRankings k rankings).rows).map FusedHit.chunkId

section Ordered

variable {k : Int} {rankings : List (List EventChunk)}

theorem orderedIds_perm (k : Int) (rankings : List (List EventChunk)) :
    (orderedIds k rankings).Perm (rankedIds rankings).eraseDups := by
  rw [← map_id_occurrences, ← (fuses_fuseRankings k rankings).ids]
  exact (List.perm_insertionSort _ _).map _

theorem mem_orderedIds {id : String} : id ∈ orderedIds k rankings ↔ id ∈ rankedIds rankings := by
  rw [(orderedIds_perm k rankings).mem_iff, List.mem_eraseDups]

theorem nodup_orderedIds : (orderedIds k rankings).Nodup :=
  (orderedIds_perm k rankings).nodup_iff.mpr (Grouping.nodup_eraseDups _)

/-- The ids stand in the order of `SortsBefore`. -/
theorem pairwise_orderedIds (k : Int) (rankings : List (List EventChunk)) :
    (orderedIds k rankings).Pairwise (SortsBefore k rankings) := by
  have hfused := fuses_fuseRankings k rankings
  have hplaces : (fuseRankings k rankings).rows.Pairwise fun h h' =>
      appearance rankings h.chunkId < appearance rankings h'.chunkId := by
    rw [← List.pairwise_map (f := FusedHit.chunkId)
      (R := fun id id' => appearance rankings id < appearance rankings id'), hfused.ids,
      map_id_occurrences]
    exact Ranking.pairwise_eraseDups _
  have hsorted := Ranking.pairwise_insertionSort_position
    (r := fun h h' : FusedHit => h'.score ≤ h.score) hplaces
  refine List.pairwise_map.mpr (hsorted.imp_of_mem fun {h h'} hh hh' hle => ?_)
  have hscore := hfused.score h (mem_newestFirst.mp hh)
  have hscore' := hfused.score h' (mem_newestFirst.mp hh')
  rcases lt_or_eq_of_le hle.1 with hlt | heq
  · exact .inl (by rwa [hscore, hscore'] at hlt)
  · exact .inr ⟨by rw [rrfScore, rrfScore, ← hscore, ← hscore', heq], hle.2 heq.ge⟩

/-- A list of distinct chunks, alone or beside an empty one, keeps its order. -/
theorem orderedIds_alone (hk : 0 < k) {leg : List EventChunk}
    (hleg : (leg.map EventChunk.chunkId).Nodup) (halone : occurrences rankings = leg.zipIdx 1) :
    orderedIds k rankings = leg.map EventChunk.chunkId := by
  have hids : rankedIds rankings = leg.map EventChunk.chunkId := by
    rw [← map_id_occurrences, halone, map_id_zipIdx]
  have hsorted : (leg.map EventChunk.chunkId).Pairwise (SortsBefore k rankings) := by
    have hplaces := Ranking.pairwise_eraseDups (leg.map EventChunk.chunkId)
    rw [Grouping.eraseDups_of_nodup hleg] at hplaces
    refine hplaces.imp_of_mem fun {a b} ha hb hlt => .inl ?_
    rw [rrfScore, rrfScore, halone, scoreOf_zipIdx hleg, scoreOf_zipIdx hleg, if_pos ha, if_pos hb]
    exact rrfLegScore_lt hk (Nat.add_lt_add_left hlt 1)
  refine List.Perm.eq_of_pairwise (fun a b _ _ hab hba => absurd hba (SortsBefore.asymm _ _ hab))
    (pairwise_orderedIds k rankings) hsorted ?_
  have hperm := orderedIds_perm k rankings
  rwa [hids, Grouping.eraseDups_of_nodup hleg] at hperm

end Ordered

/-! ## The result -/

section Result

variable {k topK : Int} {rankings : List (List EventChunk)} {fused : List FusedHit}

theorem fusion_of_pos (rankings : List (List EventChunk)) (hk : 0 < k) (htop : 0 < topK) :
    reciprocalRankFusion rankings topK k =
      .ok ((newestFirst FusedHit.score (fuseRankings k rankings).rows).take topK.toNat) := by
  rw [reciprocalRankFusion, if_neg (not_le.mpr htop), if_neg (not_le.mpr hk)]
  rfl

/-- A result that is not empty was asked for, with a positive constant. -/
theorem pos_of_fusion (h : reciprocalRankFusion rankings topK k = .ok fused) (hne : fused ≠ []) :
    0 < topK ∧ 0 < k := by
  unfold reciprocalRankFusion at h
  split at h
  · cases h
    exact absurd rfl hne
  · next htop =>
    split at h
    · cases h
    · next hk => exact ⟨not_le.mp htop, not_le.mp hk⟩

/-- The ids of the result are the first of the ordered ids. -/
theorem ids_of_fusion (h : reciprocalRankFusion rankings topK k = .ok fused) :
    fused.map FusedHit.chunkId = (orderedIds k rankings).take topK.toNat := by
  unfold reciprocalRankFusion at h
  split at h
  · next htop =>
    cases h
    rw [Int.toNat_of_nonpos htop, List.take_zero, List.map_nil]
  · split at h
    · cases h
    · cases h
      rw [orderedIds, List.map_take]

theorem score_of_fusion (h : reciprocalRankFusion rankings topK k = .ok fused) {hit : FusedHit}
    (hhit : hit ∈ fused) : hit.score = rrfScore k rankings hit.chunkId ∧
      ((occurrences rankings).find? fun e => e.1.chunkId = hit.chunkId).map Prod.fst =
        some hit.chunk := by
  unfold reciprocalRankFusion at h
  split at h
  · cases h
    cases hhit
  · split at h
    · cases h
    · cases h
      have hmem := mem_newestFirst.mp (List.mem_of_mem_take hhit)
      exact ⟨(fuses_fuseRankings k rankings).score hit hmem,
        (fuses_fuseRankings k rankings).chunk hit hmem⟩

/-- A list of distinct chunks, alone or beside an empty one, is returned as it is. -/
theorem fusion_alone (hk : 0 < k) {leg : List EventChunk}
    (hleg : (leg.map EventChunk.chunkId).Nodup) (halone : occurrences rankings = leg.zipIdx 1)
    (h : reciprocalRankFusion rankings topK k = .ok fused) :
    fused.map FusedHit.chunk = leg.take topK.toNat := by
  have hids := ids_of_fusion h
  rw [orderedIds_alone hk hleg halone, ← List.map_take] at hids
  refine Ranking.eq_of_map_eq (f := EventChunk.chunkId) (by rwa [List.map_map]) ?_
  intro chunk hchunk chunk' hchunk' hid
  obtain ⟨hit, hhit, rfl⟩ := List.mem_map.mp hchunk
  have hmem : hit.chunk ∈ leg := by
    obtain ⟨e, he, hfirst⟩ := Option.map_eq_some_iff.mp (score_of_fusion h hhit).2
    have hin := List.mem_of_find?_eq_some he
    rw [halone] at hin
    rw [← List.zipIdx_map_fst 1 leg, ← hfirst]
    exact List.mem_map_of_mem hin
  exact List.inj_on_of_nodup_map hleg hmem (List.mem_of_mem_take hchunk') hid

end Result

/-- The fusion returns the first `topK` of the distinct chunks, each with the sum of its scores,
in the order of `SortsBefore`; no chunk left out sorts before a returned one. One more place
appends a chunk at most, and a single list is returned as it is. -/
theorem fusion_ranks (rankings : List (List EventChunk)) {topK k : Int} (htop : 0 < topK)
    (hk : 0 < k) : ∃ fused, reciprocalRankFusion rankings topK k = .ok fused ∧
      (fused.map FusedHit.chunkId).Nodup ∧
      fused.length = min topK.toNat (rankedIds rankings).eraseDups.length ∧
      (∀ hit ∈ fused, hit.score = rrfScore k rankings hit.chunkId ∧
        ((occurrences rankings).find? fun e => e.1.chunkId = hit.chunkId).map Prod.fst =
          some hit.chunk) ∧
      (fused.Pairwise fun hit hit' => SortsBefore k rankings hit.chunkId hit'.chunkId) ∧
      (∀ id ∈ rankedIds rankings, id ∉ fused.map FusedHit.chunkId →
        ∀ hit ∈ fused, SortsBefore k rankings hit.chunkId id) ∧
      (∃ more, reciprocalRankFusion rankings (topK + 1) k = .ok more ∧ fused <+: more) ∧
      ∀ leg, (leg.map EventChunk.chunkId).Nodup → rankings = [leg, []] ∨ rankings = [[], leg] →
        fused.map FusedHit.chunk = leg.take topK.toNat := by
  have hfused := fusion_of_pos rankings hk htop
  refine ⟨_, hfused, nodup_fusion hfused, ?_, fun hit => score_of_fusion hfused, ?_, ?_,
    ⟨_, fusion_of_pos rankings hk (by omega), ?_⟩, fun leg hleg halone => ?_⟩
  · rw [← List.length_map (f := FusedHit.chunkId), ids_of_fusion hfused, List.length_take,
      (orderedIds_perm k rankings).length_eq]
  · rw [← List.pairwise_map (f := FusedHit.chunkId) (R := SortsBefore k rankings),
      ids_of_fusion hfused]
    exact (pairwise_orderedIds k rankings).sublist (List.take_sublist _ _)
  · intro id hid hout hit hhit
    have hin := List.mem_map_of_mem (f := FusedHit.chunkId) hhit
    rw [ids_of_fusion hfused] at hout hin
    -- the ids left out stand behind those that are returned
    have hsplit := pairwise_orderedIds k rankings
    rw [← List.take_append_drop topK.toNat (orderedIds k rankings)] at hsplit
    refine (List.pairwise_append.mp hsplit).2.2 _ hin _ ?_
    have hall := mem_orderedIds (k := k).mpr hid
    rw [← List.take_append_drop topK.toNat (orderedIds k rankings)] at hall
    exact (List.mem_append.mp hall).resolve_left hout
  · exact List.take_prefix_take_left (by omega)
  · refine fusion_alone hk hleg ?_ hfused
    rcases halone with rfl | rfl <;> simp [occurrences]

/-- A chunk of one day. -/
def walkChunk (id : String) : EventChunk where
  chunkId := id
  noteId := "note"
  sourceMessageId := "source"
  communityId := "community"
  authorUserId := "user"
  noteDate := .mayNinth
  eventIndex := 0
  chunkText := "walk"
  createdAt := .mayNinth

/-- Two legs that share a chunk : it comes first, the first chunks of the legs tie, and the one
of the first leg is returned. -/
theorem fusion_ranks_shared :
    let legs := [[walkChunk "a", walkChunk "b"], [walkChunk "c", walkChunk "b"]]
    ∃ fused, reciprocalRankFusion legs 2 = .ok fused ∧
      fused.map FusedHit.chunkId = ["b", "a"] ∧ SortsBefore defaultRrfK legs "a" "c" := by
  intro legs
  obtain ⟨fused, hfused, -, -, -, -, hout, -⟩ :=
    @fusion_ranks legs 2 defaultRrfK (by decide) (by decide)
  have hids : fused.map FusedHit.chunkId = ["b", "a"] := by
    have hrun : (reciprocalRankFusion legs 2).toOption.map (List.map FusedHit.chunkId) =
        some ["b", "a"] := by
      decide +kernel
    rw [hfused] at hrun
    exact Option.some.inj hrun
  have ha : "a" ∈ fused.map FusedHit.chunkId := by
    rw [hids]
    decide
  obtain ⟨hit, hhit, hid⟩ := List.mem_map.mp ha
  have hbefore := hout "c" (by decide) (by rw [hids]; decide) hit hhit
  rw [hid] at hbefore
  exact ⟨fused, hfused, hids, hbefore⟩

end DiaryMemory
