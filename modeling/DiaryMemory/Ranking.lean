import DiaryMemory.Grouping
import Mathlib.Data.List.Sort

/-!
# Positions in a ranking

A list whose elements stand in the order of a relation is a ranking. The position of an element
is the number of elements that come before it (`idxOf_eq_countP`), so an element that fewer others
come before moves up (`idxOf_le_of_imp`).

The first appearances in a list are a ranking by the place of the first appearance
(`pairwise_eraseDups`). A stable sort is a ranking by the order it sorts by, ties by the place
before the sort (`pairwise_insertionSort_position`), and selects as the list does
(`filter_insertionSort`).
-/

namespace DiaryMemory

namespace Ranking

variable {α : Type} [DecidableEq α] {l l' : List α} {a b : α}

/-! ## First appearances -/

theorem pairwise_eraseDups (l : List α) :
    l.eraseDups.Pairwise fun a b => l.idxOf a < l.idxOf b := by
  induction l using List.reverseRec with
  | nil => exact .nil
  | append_singleton l k ih =>
    have hkeep : ∀ a ∈ l.eraseDups, (l ++ [k]).idxOf a = l.idxOf a := fun a ha =>
      List.idxOf_append_of_mem (List.mem_eraseDups.mp ha)
    have hold : l.eraseDups.Pairwise fun a b => (l ++ [k]).idxOf a < (l ++ [k]).idxOf b :=
      ih.imp_of_mem fun ha hb hlt => by rwa [hkeep _ ha, hkeep _ hb]
    rw [Grouping.eraseDups_concat]
    split
    · exact hold
    · next hk =>
      refine List.pairwise_append.mpr ⟨hold, List.pairwise_singleton _ _, fun a ha b hb => ?_⟩
      obtain rfl := List.mem_singleton.mp hb
      rw [hkeep a ha, List.idxOf_append_of_notMem hk]
      exact Nat.lt_add_right _ (List.idxOf_lt_length_of_mem (List.mem_eraseDups.mp ha))

/-! ## Positions -/

section Positions

variable {R R' : α → α → Prop}

/-- An element before another one has the smaller position. -/
theorem idxOf_lt_of_rel (hasymm : ∀ a b, R a b → ¬ R b a) (h : l.Pairwise R) (ha : a ∈ l)
    (hb : b ∈ l) (hab : R a b) : l.idxOf a < l.idxOf b := by
  induction l with
  | nil => exact absurd ha List.not_mem_nil
  | cons x l ih =>
    obtain ⟨hx, hl⟩ := List.pairwise_cons.mp h
    have hne : a ≠ b := by
      rintro rfl
      exact hasymm _ _ hab hab
    by_cases hxa : x = a
    · subst hxa
      rw [List.idxOf_cons_self, List.idxOf_cons_ne _ hne]
      exact Nat.succ_pos _
    · have ha' : a ∈ l := (List.mem_cons.mp ha).resolve_left (Ne.symm hxa)
      have hxb : x ≠ b := by
        rintro rfl
        exact hasymm _ _ hab (hx a ha')
      have hb' : b ∈ l := (List.mem_cons.mp hb).resolve_left (Ne.symm hxb)
      rw [List.idxOf_cons_ne _ hxa, List.idxOf_cons_ne _ hxb]
      exact Nat.succ_lt_succ (ih hl ha' hb')

variable [DecidableRel R] [DecidableRel R']

/-- The position of an element is the number of elements that come before it. -/
theorem idxOf_eq_countP (hasymm : ∀ a b, R a b → ¬ R b a) (h : l.Pairwise R) (ha : a ∈ l) :
    l.idxOf a = l.countP fun b => R b a := by
  induction l with
  | nil => exact absurd ha List.not_mem_nil
  | cons x l ih =>
    obtain ⟨hx, hl⟩ := List.pairwise_cons.mp h
    by_cases he : x = a
    · subst he
      have hnone : (x :: l).countP (fun b => R b x) = 0 := by
        simp only [List.countP_eq_zero, List.mem_cons, decide_eq_true_eq]
        rintro b (rfl | hb)
        · exact fun hxx => hasymm _ _ hxx hxx
        · exact hasymm _ _ (hx b hb)
      rw [hnone, List.idxOf_cons_self]
    · have ha' : a ∈ l := (List.mem_cons.mp ha).resolve_left (Ne.symm he)
      rw [List.idxOf_cons_ne _ he, ih hl ha', List.countP_cons_of_pos (by simpa using hx a ha')]

/-- In two rankings of the same elements, an element that comes after no more than before does
not move down. -/
theorem idxOf_le_of_imp (hasymm : ∀ a b, R a b → ¬ R b a) (hasymm' : ∀ a b, R' a b → ¬ R' b a)
    (h : l.Pairwise R) (h' : l'.Pairwise R') (hperm : l'.Perm l) (ha : a ∈ l)
    (himp : ∀ b ∈ l, R' b a → R b a) : l'.idxOf a ≤ l.idxOf a := by
  rw [idxOf_eq_countP hasymm h ha, idxOf_eq_countP hasymm' h' (hperm.mem_iff.mpr ha),
    hperm.countP_eq]
  exact List.countP_mono_left fun b hb hba =>
    decide_eq_true (himp b hb (of_decide_eq_true hba))

end Positions

/-! ## Moving an element up -/

section Moved

variable {xs ys zs : List α} {c : α}

theorem idxOf_middle (h : c ∉ xs) : (xs ++ c :: ys).idxOf c = xs.length := by
  rw [List.idxOf_append_of_notMem h, List.idxOf_cons_self, Nat.add_zero]

omit [DecidableEq α] in
theorem perm_moved (xs ys zs : List α) (c : α) :
    (xs ++ c :: ys ++ zs).Perm (xs ++ ys ++ c :: zs) := by
  rw [List.append_assoc, List.append_assoc]
  exact List.Perm.append_left xs List.perm_middle.symm

/-- The other elements do not move up. -/
theorem idxOf_le_moved (h : a ≠ c) :
    (xs ++ ys ++ c :: zs).idxOf a ≤ (xs ++ c :: ys ++ zs).idxOf a := by
  rw [List.append_assoc, List.append_assoc]
  by_cases hxs : a ∈ xs
  · rw [List.idxOf_append_of_mem hxs, List.idxOf_append_of_mem hxs]
  rw [List.idxOf_append_of_notMem hxs, List.idxOf_append_of_notMem hxs, List.cons_append,
    List.idxOf_cons_ne _ h.symm]
  refine Nat.add_le_add_left ?_ _
  by_cases hys : a ∈ ys
  · rw [List.idxOf_append_of_mem hys, List.idxOf_append_of_mem hys]
    exact Nat.le_succ _
  · rw [List.idxOf_append_of_notMem hys, List.idxOf_append_of_notMem hys,
      List.idxOf_cons_ne _ h.symm]
    exact (Nat.add_succ _ _).le

end Moved

/-! ## Stable sorts -/

section Sorts

variable {β : Type} {r : β → β → Prop} [DecidableRel r] [Std.Total r] [IsTrans β r]
  {position : β → Nat} {x : β} {rows : List β}

theorem pairwise_orderedInsert_position (hx : ∀ y ∈ rows, position x < position y)
    (h : rows.Pairwise fun y z => r y z ∧ (r z y → position y < position z)) :
    (rows.orderedInsert r x).Pairwise fun y z => r y z ∧ (r z y → position y < position z) := by
  induction rows with
  | nil => exact List.pairwise_singleton _ _
  | cons y rows ih =>
    obtain ⟨hy, hrows⟩ := List.pairwise_cons.mp h
    rw [List.orderedInsert_cons]
    split
    · next hxy =>
      refine List.pairwise_cons.mpr ⟨fun z hz => ⟨?_, fun _ => hx z hz⟩, h⟩
      rcases List.mem_cons.mp hz with rfl | hz
      · exact hxy
      · exact IsTrans.trans _ _ _ hxy (hy z hz).1
    · next hxy =>
      have hrest := ih (fun z hz => hx z (List.mem_cons_of_mem _ hz)) hrows
      refine List.pairwise_cons.mpr ⟨fun z hz => ?_, hrest⟩
      rcases (List.mem_orderedInsert r).mp hz with rfl | hz
      · exact ⟨(total_of r _ _).resolve_left hxy, fun hxy' => absurd hxy' hxy⟩
      · exact hy z hz

/-- What stands before in a sorted list sorts before, or ties and stood before. -/
theorem pairwise_insertionSort_position (h : rows.Pairwise fun y z => position y < position z) :
    (rows.insertionSort r).Pairwise fun y z => r y z ∧ (r z y → position y < position z) := by
  induction rows with
  | nil => exact .nil
  | cons x rows ih =>
    obtain ⟨hx, hrows⟩ := List.pairwise_cons.mp h
    exact pairwise_orderedInsert_position
      (fun y hy => hx y ((List.mem_insertionSort r).mp hy)) (ih hrows)

omit [Std.Total r] in
theorem filter_orderedInsert {p : β → Bool} (h : rows.Pairwise r) :
    (rows.orderedInsert r x).filter p =
      if p x then (rows.filter p).orderedInsert r x else rows.filter p := by
  induction rows with
  | nil => cases hp : p x <;> simp [hp]
  | cons y rows ih =>
    obtain ⟨hy, hrows⟩ := List.pairwise_cons.mp h
    rw [List.orderedInsert_cons]
    split
    · next hxy =>
      cases hp : p x with
      | false => simp [hp]
      | true =>
        -- `x` comes before every row, so before every row that is kept
        have hfirst : ∀ z ∈ (y :: rows).filter p, r x z := by
          intro z hz
          rcases List.mem_cons.mp (List.mem_filter.mp hz).1 with rfl | hz
          · exact hxy
          · exact IsTrans.trans _ _ _ hxy (hy z hz)
        rw [List.filter_cons_of_pos hp, if_pos rfl]
        cases hrest : (y :: rows).filter p with
        | nil => rfl
        | cons z zs =>
          rw [hrest] at hfirst
          rw [List.orderedInsert_cons_of_le r _ (hfirst z List.mem_cons_self)]
    · next hxy =>
      rw [List.filter_cons, List.filter_cons, ih hrows]
      cases hp : p x with
      | false => simp
      | true =>
        cases hpy : p y with
        | false => simp
        | true => simp [hxy]

/-- A selection of the sorted list is the sorted selection. -/
theorem filter_insertionSort (p : β → Bool) (rows : List β) :
    (rows.insertionSort r).filter p = (rows.filter p).insertionSort r := by
  induction rows with
  | nil => rfl
  | cons x rows ih =>
    rw [List.insertionSort_cons, filter_orderedInsert (List.pairwise_insertionSort r rows), ih,
      List.filter_cons]
    split <;> rfl

end Sorts

/-! ## The first ranks -/

/-- Lists of elements that a key tells apart are told apart by their keys. -/
theorem eq_of_map_eq {β γ : Type} {f : β → γ} : ∀ {xs ys : List β}, xs.map f = ys.map f →
    (∀ x ∈ xs, ∀ y ∈ ys, f x = f y → x = y) → xs = ys
  | [], [], _, _ => rfl
  | x :: xs, y :: ys, h, hinj => by
    obtain ⟨hxy, hrest⟩ := List.cons.inj h
    rw [hinj x List.mem_cons_self y List.mem_cons_self hxy, eq_of_map_eq hrest fun x' hx' y' hy' =>
      hinj x' (List.mem_cons_of_mem x hx') y' (List.mem_cons_of_mem y hy')]

/-- Among the first ranks, an element keeps its position. -/
theorem idxOf_take {n : Nat} (h : a ∈ l.take n) : (l.take n).idxOf a = l.idxOf a := by
  conv_rhs => rw [← List.take_append_drop n l]
  rw [List.idxOf_append_of_mem h]

end Ranking

end DiaryMemory
