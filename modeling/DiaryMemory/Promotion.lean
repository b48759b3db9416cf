import DiaryMemory.Fusion

/-!
# Moving a chunk up

A chunk that a list ranks better is not returned later by the fusion, and is not dropped : its
score rises, and the scores of the others do not (`sortsBefore_of_promoted`). A chunk that is
ahead of another one in every list that has the other is returned ahead of it
(`sortsBefore_of_ahead`). Both hold of any family of lists (`fusion_monotone`).
-/

namespace DiaryMemory

variable {k topK : Int} {before after rankings : List (List EventChunk)}
  {xs ys zs : List EventChunk} {chunk : EventChunk} {fused : List FusedHit} {id id' : String}

/-- The ids of a list. -/
abbrev idsOf (ranking : List EventChunk) : List String := ranking.map EventChunk.chunkId

/-! ## One list -/

theorem perm_idsOf_moved (xs ys zs : List EventChunk) (chunk : EventChunk) :
    (idsOf (xs ++ chunk :: ys ++ zs)).Perm (idsOf (xs ++ ys ++ chunk :: zs)) :=
  (Ranking.perm_moved xs ys zs chunk).map EventChunk.chunkId

/-- The moved chunk scores more. -/
theorem legScore_promoted (hk : 0 < k) (h : (idsOf (xs ++ ys ++ chunk :: zs)).Nodup)
    (hys : ys ≠ []) : legScore k (xs ++ ys ++ chunk :: zs) chunk.chunkId <
      legScore k (xs ++ chunk :: ys ++ zs) chunk.chunkId := by
  have hperm := perm_idsOf_moved xs ys zs chunk
  have hmem : chunk.chunkId ∈ idsOf (xs ++ ys ++ chunk :: zs) :=
    List.mem_map_of_mem (List.mem_append_right _ List.mem_cons_self)
  rw [legScore_of_mem h hmem, legScore_of_mem (hperm.nodup_iff.mpr h) (hperm.mem_iff.mpr hmem)]
  refine rrfLegScore_lt hk (Nat.add_lt_add_left ?_ 1)
  have hids : idsOf (xs ++ ys ++ chunk :: zs) =
      idsOf (xs ++ ys) ++ chunk.chunkId :: idsOf zs := by
    rw [idsOf, List.map_append, List.map_cons]
  have hids' : idsOf (xs ++ chunk :: ys ++ zs) =
      idsOf xs ++ chunk.chunkId :: idsOf (ys ++ zs) := by
    rw [idsOf, List.append_assoc, List.map_append, List.cons_append, List.map_cons]
  have hnot : chunk.chunkId ∉ idsOf (xs ++ ys) := fun hin =>
    (List.nodup_append.mp (hids ▸ h)).2.2 _ hin _ List.mem_cons_self rfl
  have hnotxs : chunk.chunkId ∉ idsOf xs := fun hin =>
    hnot (by rw [idsOf, List.map_append]; exact List.mem_append_left _ hin)
  have hpos := List.length_pos_of_ne_nil hys
  change (idsOf (xs ++ chunk :: ys ++ zs)).idxOf _ < (idsOf (xs ++ ys ++ chunk :: zs)).idxOf _
  rw [hids, hids', Ranking.idxOf_middle hnot, Ranking.idxOf_middle hnotxs, List.length_map,
    List.length_map, List.length_append]
  omega

/-- The others do not. -/
theorem legScore_others (hk : 0 < k) (h : (idsOf (xs ++ ys ++ chunk :: zs)).Nodup)
    (hid : id ≠ chunk.chunkId) : legScore k (xs ++ chunk :: ys ++ zs) id ≤
      legScore k (xs ++ ys ++ chunk :: zs) id := by
  have hperm := perm_idsOf_moved xs ys zs chunk
  by_cases hmem : id ∈ idsOf (xs ++ ys ++ chunk :: zs)
  · rw [legScore_of_mem h hmem, legScore_of_mem (hperm.nodup_iff.mpr h) (hperm.mem_iff.mpr hmem)]
    refine rrfLegScore_le hk (Nat.add_le_add_left ?_ 1)
    simpa only [List.map_append, List.map_cons] using Ranking.idxOf_le_moved hid
  · rw [legScore_of_not_mem hmem, legScore_of_not_mem (hperm.mem_iff.not.mpr hmem)]

/-- In a list where `id` stands ahead of `id'` it scores more. -/
theorem legScore_ahead (hk : 0 < k) {ranking : List EventChunk} (hn : (idsOf ranking).Nodup)
    (hmem' : id' ∈ idsOf ranking)
    (hahead : id ∈ idsOf ranking ∧ (idsOf ranking).idxOf id < (idsOf ranking).idxOf id') :
    legScore k ranking id' < legScore k ranking id := by
  rw [legScore_of_mem hn hahead.1, legScore_of_mem hn hmem']
  exact rrfLegScore_lt hk (Nat.add_lt_add_left hahead.2 1)

theorem legScore_nonneg (hk : 0 < k) {ranking : List EventChunk} (hn : (idsOf ranking).Nodup) :
    0 ≤ legScore k ranking id := by
  by_cases hmem : id ∈ idsOf ranking
  · rw [legScore_of_mem hn hmem]
    exact (rrfLegScore_pos hk _).le
  · rw [legScore_of_not_mem hmem]

/-! ## All lists -/

/-- The lists, with the chunk before `ys` in one of them. -/
def promoted (before after : List (List EventChunk)) (xs ys zs : List EventChunk)
    (chunk : EventChunk) : List (List EventChunk) :=
  before ++ (xs ++ chunk :: ys ++ zs) :: after

/-- The lists, with the chunk after `ys` in one of them. -/
def unpromoted (before after : List (List EventChunk)) (xs ys zs : List EventChunk)
    (chunk : EventChunk) : List (List EventChunk) :=
  before ++ (xs ++ ys ++ chunk :: zs) :: after

theorem rrfScore_middle (ranking : List EventChunk) :
    rrfScore k (before ++ ranking :: after) id =
      rrfScore k before id + (legScore k ranking id + rrfScore k after id) := by
  simp only [rrfScore_eq_sum, List.map_append, List.map_cons, List.sum_append, List.sum_cons]

theorem rankedIds_middle (ranking : List EventChunk) :
    rankedIds (before ++ ranking :: after) =
      rankedIds before ++ (idsOf ranking ++ rankedIds after) := by
  simp only [rankedIds, List.flatten_append, List.flatten_cons, List.map_append]

theorem perm_orderedIds_promoted (k : Int) (before after : List (List EventChunk))
    (xs ys zs : List EventChunk) (chunk : EventChunk) :
    (orderedIds k (promoted before after xs ys zs chunk)).Perm
      (orderedIds k (unpromoted before after xs ys zs chunk)) := by
  refine (List.perm_ext_iff_of_nodup nodup_orderedIds nodup_orderedIds).mpr fun id => ?_
  rw [mem_orderedIds, mem_orderedIds, promoted, unpromoted, rankedIds_middle, rankedIds_middle,
    List.mem_append, List.mem_append, List.mem_append, List.mem_append,
    (perm_idsOf_moved xs ys zs chunk).mem_iff]

/-- What sorts before the promoted chunk did so before. -/
theorem sortsBefore_of_promoted (hk : 0 < k) (h : (idsOf (xs ++ ys ++ chunk :: zs)).Nodup)
    (hb : SortsBefore k (promoted before after xs ys zs chunk) id chunk.chunkId) :
    SortsBefore k (unpromoted before after xs ys zs chunk) id chunk.chunkId := by
  by_cases hid : id = chunk.chunkId
  · subst hid
    exact absurd hb (SortsBefore.asymm _ _ hb)
  cases ys with
  | nil =>
    rw [unpromoted, List.append_nil]
    rwa [promoted, List.append_assoc] at hb
  | cons y ys =>
    have hrise : rrfScore k (unpromoted before after xs (y :: ys) zs chunk) chunk.chunkId <
        rrfScore k (promoted before after xs (y :: ys) zs chunk) chunk.chunkId := by
      have hleg := legScore_promoted hk h (List.cons_ne_nil y ys)
      rw [promoted, unpromoted, rrfScore_middle, rrfScore_middle]
      linarith
    have hfall : rrfScore k (promoted before after xs (y :: ys) zs chunk) id ≤
        rrfScore k (unpromoted before after xs (y :: ys) zs chunk) id := by
      have hleg := legScore_others hk h hid
      rw [promoted, unpromoted, rrfScore_middle, rrfScore_middle]
      linarith
    have hahead : rrfScore k (promoted before after xs (y :: ys) zs chunk) chunk.chunkId ≤
        rrfScore k (promoted before after xs (y :: ys) zs chunk) id := by
      rcases hb with hlt | ⟨heq, -⟩
      · exact hlt.le
      · exact heq.ge
    exact .inl (hrise.trans_le (hahead.trans hfall))

/-- An id that is ahead of another one wherever that one is ranked, sorts before it. -/
theorem sortsBefore_of_ahead (hk : 0 < k) (hn : ∀ ranking ∈ rankings, (idsOf ranking).Nodup)
    (hahead : ∀ ranking ∈ rankings, id' ∈ idsOf ranking → id ∈ idsOf ranking ∧
      (idsOf ranking).idxOf id < (idsOf ranking).idxOf id')
    (hmem : id' ∈ rankedIds rankings) : SortsBefore k rankings id id' := by
  refine .inl ?_
  rw [rrfScore_eq_sum, rrfScore_eq_sum]
  refine List.sum_lt_sum _ _ (fun ranking hr => ?_) ?_
  · by_cases hin : id' ∈ idsOf ranking
    · exact (legScore_ahead hk (hn ranking hr) hin (hahead ranking hr hin)).le
    · rw [legScore_of_not_mem hin]
      exact legScore_nonneg hk (hn ranking hr)
  · obtain ⟨chunk, hchunk, rfl⟩ := List.mem_map.mp hmem
    obtain ⟨ranking, hr, hin⟩ := List.mem_flatten.mp hchunk
    have hin' : chunk.chunkId ∈ idsOf ranking := List.mem_map_of_mem hin
    exact ⟨ranking, hr, legScore_ahead hk (hn ranking hr) hin' (hahead ranking hr hin')⟩

/-! ## The result -/

theorem rankedIds_of_fusion (h : reciprocalRankFusion rankings topK k = .ok fused)
    (hid : id ∈ fused.map FusedHit.chunkId) : id ∈ orderedIds k rankings := by
  rw [ids_of_fusion h] at hid
  exact List.mem_of_mem_take hid

/-- The position in the result, and whether an id is in it, is its place among the ordered ids. -/
theorem idxOf_of_fusion (h : reciprocalRankFusion rankings topK k = .ok fused)
    (hid : id ∈ fused.map FusedHit.chunkId) :
    (fused.map FusedHit.chunkId).idxOf id = (orderedIds k rankings).idxOf id := by
  rw [ids_of_fusion h] at hid ⊢
  exact Ranking.idxOf_take hid

theorem mem_fusion_iff (h : reciprocalRankFusion rankings topK k = .ok fused)
    (hid : id ∈ orderedIds k rankings) :
    id ∈ fused.map FusedHit.chunkId ↔ (orderedIds k rankings).idxOf id < topK.toNat := by
  rw [ids_of_fusion h]
  exact List.mem_take_iff_idxOf_lt hid

/-- Moving a chunk up in one list does not move it down in the result, nor out of it; and an id
that is ahead of another one in every list that has the other is ahead of it in the result. -/
theorem fusion_monotone (topK k : Int) :
    (∀ before after xs ys zs chunk fused,
      (∀ ranking ∈ unpromoted before after xs ys zs chunk, (idsOf ranking).Nodup) →
      reciprocalRankFusion (unpromoted before after xs ys zs chunk) topK k = .ok fused →
      chunk.chunkId ∈ fused.map FusedHit.chunkId →
      ∃ fused', reciprocalRankFusion (promoted before after xs ys zs chunk) topK k = .ok fused' ∧
        chunk.chunkId ∈ fused'.map FusedHit.chunkId ∧
        (fused'.map FusedHit.chunkId).idxOf chunk.chunkId ≤
          (fused.map FusedHit.chunkId).idxOf chunk.chunkId) ∧
    ∀ rankings fused id id',
      (∀ ranking ∈ rankings, (idsOf ranking).Nodup) →
      (∀ ranking ∈ rankings, id' ∈ idsOf ranking → id ∈ idsOf ranking ∧
        (idsOf ranking).idxOf id < (idsOf ranking).idxOf id') →
      reciprocalRankFusion rankings topK k = .ok fused → id' ∈ fused.map FusedHit.chunkId →
      id ∈ fused.map FusedHit.chunkId ∧
        (fused.map FusedHit.chunkId).idxOf id < (fused.map FusedHit.chunkId).idxOf id' := by
  refine ⟨fun before after xs ys zs chunk fused hn h hmem => ?_,
    fun rankings fused id id' hn hahead h hmem => ?_⟩
  · obtain ⟨htop, hk⟩ := pos_of_fusion h (by rintro rfl; cases hmem)
    have h' := fusion_of_pos (promoted before after xs ys zs chunk) hk htop
    have hperm := perm_orderedIds_promoted k before after xs ys zs chunk
    have hin := rankedIds_of_fusion h hmem
    have hmoved : (idsOf (xs ++ ys ++ chunk :: zs)).Nodup :=
      hn _ (List.mem_append_right _ List.mem_cons_self)
    have hle := Ranking.idxOf_le_of_imp SortsBefore.asymm SortsBefore.asymm
      (pairwise_orderedIds k (unpromoted before after xs ys zs chunk)) (pairwise_orderedIds _ _)
      hperm hin fun id _ => sortsBefore_of_promoted hk hmoved
    have hkept := (mem_fusion_iff h' (hperm.mem_iff.mpr hin)).mpr
      (hle.trans_lt ((mem_fusion_iff h hin).mp hmem))
    refine ⟨_, h', hkept, ?_⟩
    rw [idxOf_of_fusion h' hkept, idxOf_of_fusion h hmem]
    exact hle
  · obtain ⟨htop, hk⟩ := pos_of_fusion h (by rintro rfl; cases hmem)
    have hin' := rankedIds_of_fusion h hmem
    have hbefore := sortsBefore_of_ahead hk hn hahead (mem_orderedIds.mp hin')
    have hin : id ∈ orderedIds k rankings := by
      obtain ⟨chunk, hchunk, rfl⟩ := List.mem_map.mp (mem_orderedIds.mp hin')
      obtain ⟨ranking, hr, hmem'⟩ := List.mem_flatten.mp hchunk
      obtain ⟨chunk', hchunk', rfl⟩ :=
        List.mem_map.mp (hahead ranking hr (List.mem_map_of_mem hmem')).1
      exact mem_orderedIds.mpr (List.mem_map_of_mem (List.mem_flatten.mpr ⟨ranking, hr, hchunk'⟩))
    have hlt := Ranking.idxOf_lt_of_rel SortsBefore.asymm (pairwise_orderedIds _ _) hin hin'
      hbefore
    have hkept := (mem_fusion_iff h hin).mpr (hlt.trans ((mem_fusion_iff h hin').mp hmem))
    refine ⟨hkept, ?_⟩
    rw [idxOf_of_fusion h hkept, idxOf_of_fusion h hmem]
    exact hlt

/-- The second chunk of a leg moves to its front, and a chunk that no leg ranks behind another
one stays ahead of it. -/
theorem fusion_monotone_legs :
    let legs := unpromoted [] [[walkChunk "c", walkChunk "b"]] [] [walkChunk "a"] [] (walkChunk "b")
    let legs' := promoted [] [[walkChunk "c", walkChunk "b"]] [] [walkChunk "a"] [] (walkChunk "b")
    (∃ fused fused', reciprocalRankFusion legs 2 = .ok fused ∧
      reciprocalRankFusion legs' 2 = .ok fused' ∧ "b" ∈ fused'.map FusedHit.chunkId ∧
      (fused'.map FusedHit.chunkId).idxOf "b" ≤ (fused.map FusedHit.chunkId).idxOf "b") ∧
      ∃ fused, reciprocalRankFusion [[walkChunk "a", walkChunk "b"]] 2 = .ok fused ∧
        (fused.map FusedHit.chunkId).idxOf "a" < (fused.map FusedHit.chunkId).idxOf "b" := by
  intro legs legs'
  obtain ⟨hpromoted, hahead⟩ := fusion_monotone 2 defaultRrfK
  refine ⟨?_, ?_⟩
  · obtain ⟨fused, hfused⟩ := fusion_default legs 2
    have hids : (reciprocalRankFusion legs 2).toOption.map (List.map FusedHit.chunkId) =
        some ["b", "a"] := by
      decide +kernel
    rw [hfused] at hids
    obtain ⟨fused', hfused', hin, hle⟩ := hpromoted [] [[walkChunk "c", walkChunk "b"]] []
      [walkChunk "a"] [] (walkChunk "b") fused (by decide) hfused (by
        rw [Option.some.inj hids]
        decide)
    exact ⟨fused, fused', hfused, hfused', hin, hle⟩
  · obtain ⟨fused, hfused⟩ := fusion_default [[walkChunk "a", walkChunk "b"]] 2
    have hids : (reciprocalRankFusion [[walkChunk "a", walkChunk "b"]] 2).toOption.map
        (List.map FusedHit.chunkId) = some ["a", "b"] := by
      decide +kernel
    rw [hfused] at hids
    have hfirst := hahead [[walkChunk "a", walkChunk "b"]] fused "a" "b" (by decide) (by decide)
      hfused (by rw [Option.some.inj hids]; decide)
    exact ⟨fused, hfused, hfirst.2⟩

end DiaryMemory
