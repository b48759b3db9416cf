import Mathlib.Data.List.Basic
import Mathlib.Data.List.Infix
import Mathlib.Data.List.Chain
import Mathlib.Tactic.Common

/-!
# Greedy grouping

A list is cut into consecutive groups that fit, each group taking elements as long as it fits
with them (`groups`). No other cut into groups that fit has fewer groups, provided what is
inside a group that fits does fit (`IsGreedy.length_le`); this holds of every run of the groups
too (`IsGreedy.of_infix`).
-/

namespace DiaryMemory

namespace Greedy

variable {α : Type} (Fits : List α → Prop)

/-- The group does not fit with the first element of the next one. -/
def Full (g g' : List α) : Prop := ∀ x ∈ g'.head?, ¬ Fits (g ++ [x])

/-- Groups with elements, each of them full. -/
structure IsGreedy (gs : List (List α)) : Prop where
  nonempty : ∀ g ∈ gs, g ≠ []
  full : gs.IsChain (Full Fits)

variable {Fits}

namespace IsGreedy

variable {gs gs' : List (List α)}

theorem of_infix (h : IsGreedy Fits gs) (hin : gs' <:+: gs) : IsGreedy Fits gs' :=
  ⟨fun g hg => h.nonempty g (hin.subset hg), h.full.infix hin⟩

/-- Greedy groups stay ahead : what they leave is left by every other cut. -/
theorem length_le_of_suffix (hin : ∀ g g', g <:+: g' → Fits g' → Fits g) :
    ∀ {gs gs' : List (List α)}, IsGreedy Fits gs → (∀ g ∈ gs', Fits g) →
      gs.flatten <:+ gs'.flatten → gs.length ≤ gs'.length
  | [], _, _, _, _ => Nat.zero_le _
  | g :: gs, [], h, _, hsuffix => by
    have hflat : g ++ gs.flatten = [] := List.suffix_nil.mp hsuffix
    exact absurd (List.append_eq_nil_iff.mp hflat).1 (h.nonempty g List.mem_cons_self)
  | g :: gs, g' :: gs', h, hfits, hsuffix => by
    have hrest : IsGreedy Fits gs := h.of_infix (List.suffix_cons g gs).isInfix
    refine Nat.succ_le_succ (length_le_of_suffix hin hrest
      (fun k hk => hfits k (List.mem_cons_of_mem g' hk)) ?_)
    obtain ⟨before, hbefore⟩ := hsuffix
    have hgs : gs.flatten <:+ (g' :: gs').flatten := ⟨before ++ g, by
      rw [← hbefore, List.flatten_cons, List.append_assoc]⟩
    have hgs' : gs'.flatten <:+ (g' :: gs').flatten := List.suffix_append g' gs'.flatten
    rcases List.suffix_or_suffix_of_suffix hgs hgs' with hle | ⟨extra, hextra⟩
    · exact hle
    -- otherwise the other group holds the greedy one with its next element
    cases extra with
    | nil => exact ⟨[], hextra.symm⟩
    | cons x extra =>
      have hg' : g' = before ++ g ++ x :: extra := by
        refine (List.append_left_inj gs'.flatten).mp ?_
        rw [← List.flatten_cons, ← hbefore, List.flatten_cons, ← hextra]
        simp
      obtain ⟨y, g₂, gs₂, rfl⟩ : ∃ y g₂ gs₂, gs = (y :: g₂) :: gs₂ := by
        cases gs with
        | nil => cases hextra
        | cons g₁ gs₂ =>
          cases g₁ with
          | nil => exact absurd rfl (hrest.nonempty [] List.mem_cons_self)
          | cons y g₂ => exact ⟨y, g₂, gs₂, rfl⟩
      obtain rfl : x = y := (List.cons.inj hextra).1
      have hfull : ¬ Fits (g ++ [x]) := (List.isChain_cons_cons.mp h.full).1 x rfl
      refine absurd (hin (g ++ [x]) g' ⟨before, extra, ?_⟩ (hfits g' List.mem_cons_self)) hfull
      rw [hg']
      simp

/-- No cut of the same list has fewer groups. -/
theorem length_le (hin : ∀ g g', g <:+: g' → Fits g' → Fits g) (h : IsGreedy Fits gs)
    (hfits : ∀ g ∈ gs', Fits g) (hflatten : gs'.flatten = gs.flatten) :
    gs.length ≤ gs'.length :=
  length_le_of_suffix hin h hfits (hflatten ▸ List.suffix_rfl)

end IsGreedy

variable (Fits) [DecidablePred Fits]

/-- The groups of a list, the first one begun with `cur`. -/
def groups (cur : List α) : List α → List (List α)
  | [] => if cur = [] then [] else [cur]
  | x :: xs =>
    if cur = [] then groups [x] xs
    else if Fits (cur ++ [x]) then groups (cur ++ [x]) xs
    else cur :: groups [x] xs

variable {Fits} {cur : List α}

/-- A group that is full ends there. -/
theorem groups_of_full (hcur : cur ≠ []) :
    ∀ {xs : List α}, (∀ x ∈ xs.head?, ¬ Fits (cur ++ [x])) →
      groups Fits cur xs = cur :: groups Fits [] xs
  | [], _ => by rw [groups, groups, if_neg hcur, if_pos rfl]
  | x :: xs, h => by
    have hx : ¬ Fits (cur ++ [x]) := h x rfl
    rw [groups, groups, if_neg hcur, if_neg hx, if_pos rfl]

/-- No element is lost, doubled or moved. -/
theorem flatten_groups (cur xs : List α) : (groups Fits cur xs).flatten = cur ++ xs := by
  fun_induction groups Fits cur xs with
  | case1 => rfl
  | case2 cur hcur => simp
  | case3 x xs ih => simpa using ih
  | case4 cur x xs hcur hfits ih => simpa using ih
  | case5 cur x xs hcur hfits ih => simpa using ih

/-- The group that is begun is kept. -/
theorem groups_eq_cons (hcur : cur ≠ []) (xs : List α) :
    ∃ taken rest, groups Fits cur xs = (cur ++ taken) :: rest := by
  induction xs generalizing cur with
  | nil => exact ⟨[], [], by rw [groups, if_neg hcur, List.append_nil]⟩
  | cons x xs ih =>
    rw [groups, if_neg hcur]
    split
    · obtain ⟨taken, rest, h⟩ := @ih (cur ++ [x]) (by simp)
      exact ⟨x :: taken, rest, by rw [h, List.append_assoc, List.singleton_append]⟩
    · exact ⟨[], groups Fits [x] xs, by rw [List.append_nil]⟩

theorem fits_of_mem_groups (hone : ∀ x, Fits [x]) {xs : List α} (hcur : Fits cur) {g : List α}
    (hg : g ∈ groups Fits cur xs) : Fits g := by
  fun_induction groups Fits cur xs with
  | case1 => cases hg
  | case2 cur hempty => rwa [List.mem_singleton.mp hg]
  | case3 x xs ih => exact ih (hone x) hg
  | case4 cur x xs hempty hfits ih => exact ih hfits hg
  | case5 cur x xs hempty hfits ih =>
    rcases List.mem_cons.mp hg with rfl | hg
    · exact hcur
    · exact ih (hone x) hg

theorem isGreedy_groups (cur xs : List α) : IsGreedy Fits (groups Fits cur xs) := by
  fun_induction groups Fits cur xs with
  | case1 => exact ⟨fun g hg => absurd hg List.not_mem_nil, .nil⟩
  | case2 cur hcur =>
    refine ⟨fun g hg => ?_, .singleton cur⟩
    rwa [List.mem_singleton.mp hg]
  | case3 x xs ih => exact ih
  | case4 cur x xs hcur hfits ih => exact ih
  | case5 cur x xs hcur hfits ih =>
    obtain ⟨taken, rest, hnext⟩ := @groups_eq_cons α Fits _ [x] (by simp) xs
    refine ⟨fun g hg => ?_, ?_⟩
    · rcases List.mem_cons.mp hg with rfl | hg
      · exact hcur
      · exact ih.nonempty g hg
    · have hchain := ih.full
      rw [hnext] at hchain ⊢
      refine List.isChain_cons_cons.mpr ⟨fun y hy => ?_, hchain⟩
      cases hy
      exact hfits

end Greedy

end DiaryMemory
