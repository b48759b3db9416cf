import Mathlib.Data.List.Basic
import Mathlib.Data.List.Count
import Mathlib.Logic.Function.Iterate
import Mathlib.Algebra.Order.Group.Nat

/-!
# Rounds over a backlog

A round works on the first `limit` entries of a backlog, and clears those that are not `stuck`.
Entries are worked on in order, so stuck ones at the front take up places in every round :

* behind `u` other entries of which `s` are stuck, an entry that is not stuck is cleared once
  `u < k * (limit - s)` after `k` rounds (`not_mem_rounds`);
* it is never cleared when `limit ≤ s` (`mem_rounds_of_starved`), and not yet while
  `k * limit ≤ u + s` (`mem_rounds_of_length`).
-/

namespace DiaryMemory

namespace Backlog

variable {α : Type} {stuck : α → Bool} {limit : ℕ} {l pre post : List α} {x : α}

/-- What a round leaves. -/
def round (stuck : α → Bool) (limit : ℕ) (l : List α) : List α :=
  (l.take limit).filter stuck ++ l.drop limit

/-- The entries a round can clear. -/
def clearable (stuck : α → Bool) (l : List α) : ℕ := l.countP fun a => !stuck a

/-! ## One round -/

theorem round_sublist (l : List α) : (round stuck limit l).Sublist l := by
  have h : ((l.take limit).filter stuck ++ l.drop limit).Sublist (l.take limit ++ l.drop limit) :=
    List.filter_sublist.append (List.Sublist.refl _)
  rwa [List.take_append_drop] at h

theorem mem_round_of_stuck (hx : x ∈ l) (hs : stuck x = true) : x ∈ round stuck limit l := by
  rw [← List.take_append_drop limit l] at hx
  refine List.mem_append.mpr ((List.mem_append.mp hx).imp_left fun h => ?_)
  exact List.mem_filter.mpr ⟨h, hs⟩

/-- What a round worked on and left is stuck. -/
theorem stuck_of_mem_round (hnodup : l.Nodup) (htake : x ∈ l.take limit)
    (hx : x ∈ round stuck limit l) : stuck x = true := by
  rcases List.mem_append.mp hx with hx | hx
  · exact (List.mem_filter.mp hx).2
  · exact absurd hx (List.disjoint_take_drop hnodup le_rfl htake)

/-- A round that does not reach an entry works on those before it. -/
theorem round_append (stuck : α → Bool) (post : List α) (h : limit ≤ pre.length) :
    round stuck limit (pre ++ post) = round stuck limit pre ++ post := by
  rw [round, round, List.take_append_of_le_length h, List.drop_append_of_le_length h,
    List.append_assoc]

theorem countP_stuck_round (l : List α) : (round stuck limit l).countP stuck = l.countP stuck := by
  have h := @List.countP_append _ stuck (l.take limit) (l.drop limit)
  rw [List.take_append_drop] at h
  rw [round, List.countP_append, List.countP_filter, h]
  simp

/-- The places that no stuck entry takes up are cleared, unless the backlog is shorter. -/
theorem clearable_round (stuck : α → Bool) (h : limit ≤ l.length) :
    clearable stuck (round stuck limit l) + (limit - l.countP stuck) ≤ clearable stuck l := by
  have hsplit : clearable stuck l =
      clearable stuck (l.take limit) + clearable stuck (l.drop limit) := by
    rw [clearable, ← List.take_append_drop limit l, List.countP_append, List.take_append_drop]
    rfl
  have hround : clearable stuck (round stuck limit l) = clearable stuck (l.drop limit) := by
    simp [clearable, round, List.countP_append, List.countP_filter]
  have htaken : (l.take limit).length =
      (l.take limit).countP stuck + clearable stuck (l.take limit) := by
    simpa [clearable] using @List.length_eq_countP_add_countP _ stuck (l.take limit)
  have hstuck : (l.take limit).countP stuck ≤ l.countP stuck :=
    (List.take_sublist limit l).countP_le
  rw [List.length_take_of_le h] at htaken
  omega

theorem length_round (stuck : α → Bool) (limit : ℕ) (l : List α) :
    l.length ≤ (round stuck limit l).length + limit := by
  rw [round, List.length_append, List.length_drop]
  omega

theorem round_congr {stuck' : α → Bool} (h : ∀ a ∈ l, stuck a = stuck' a) :
    round stuck limit l = round stuck' limit l := by
  rw [round, round, List.filter_congr fun a ha => h a (List.mem_of_mem_take ha)]

/-! ## Rounds -/

theorem rounds_sublist (k : ℕ) (l : List α) : ((round stuck limit)^[k] l).Sublist l := by
  induction k generalizing l with
  | zero => exact .refl l
  | succ k ih => exact (ih _).trans (round_sublist l)

/-- An entry is cleared once the rounds have places for those before it. -/
theorem not_mem_rounds {k : ℕ} (hnodup : (pre ++ x :: post).Nodup) (hx : stuck x = false)
    (h : clearable stuck pre < k * (limit - pre.countP stuck)) :
    x ∉ (round stuck limit)^[k] (pre ++ x :: post) := by
  induction k generalizing pre post with
  | zero => omega
  | succ k ih =>
    rw [Function.iterate_succ_apply]
    rcases Nat.lt_or_ge pre.length limit with hlen | hlen
    · intro hmem
      have htake : x ∈ (pre ++ x :: post).take limit :=
        List.mem_take_iff_getElem.mpr ⟨pre.length, by simp; omega, by simp⟩
      rw [stuck_of_mem_round hnodup htake ((rounds_sublist k _).subset hmem)] at hx
      cases hx
    · have hround := round_append stuck (x :: post) hlen
      have hcleared := clearable_round stuck hlen
      rw [hround]
      refine ih (hround ▸ hnodup.sublist (round_sublist _)) ?_
      rw [countP_stuck_round]
      rw [Nat.succ_mul] at h
      omega

/-- A stuck entry stays. -/
theorem mem_rounds_of_stuck {k : ℕ} (hx : x ∈ l) (hs : stuck x = true) :
    x ∈ (round stuck limit)^[k] l := by
  induction k generalizing l with
  | zero => exact hx
  | succ k ih => exact ih (mem_round_of_stuck hx hs)

/-- An entry behind `limit` stuck ones stays. -/
theorem mem_rounds_of_starved {k : ℕ} (h : limit ≤ pre.countP stuck) :
    x ∈ (round stuck limit)^[k] (pre ++ x :: post) := by
  induction k generalizing pre with
  | zero => exact List.mem_append_right _ List.mem_cons_self
  | succ k ih =>
    rw [Function.iterate_succ_apply, round_append _ _ (h.trans List.countP_le_length)]
    exact ih (h.trans_eq (countP_stuck_round pre).symm)

/-- An entry that the rounds do not reach stays. -/
theorem mem_rounds_of_length {k : ℕ} (h : k * limit ≤ pre.length) :
    x ∈ (round stuck limit)^[k] (pre ++ x :: post) := by
  induction k generalizing pre with
  | zero => exact List.mem_append_right _ List.mem_cons_self
  | succ k ih =>
    have hlen := length_round stuck limit pre
    rw [Nat.succ_mul] at h
    rw [Function.iterate_succ_apply, round_append _ _ (by omega)]
    exact ih (by omega)

end Backlog

end DiaryMemory
