import Mathlib.Data.List.Induction
import Mathlib.Tactic.Common

/-!
# Grouping a list by key

`byKey` lists the elements of each key, the keys in the order in which they first appear.
Adding the elements one by one (`insert`), each to the group of its key or as a new last
group, makes the same list (`foldl_insert`), and its groups are a partition of the elements
(`flatMap_byKey`).
-/

namespace DiaryMemory

namespace Grouping

variable {α κ : Type} [DecidableEq κ] (key : α → κ)

/-- The elements by key. -/
def byKey (l : List α) : List (κ × List α) :=
  (l.map key).eraseDups.map fun k => (k, l.filter fun a => key a = k)

/-- Add an element to the group of its key. -/
def insert (a : α) : List (κ × List α) → List (κ × List α)
  | [] => [(key a, [a])]
  | (k, group) :: groups =>
    if k = key a then (k, group ++ [a]) :: groups else (k, group) :: insert a groups

/-! ## Keys -/

theorem nodup_eraseDups : ∀ l : List κ, l.eraseDups.Nodup
  | [] => List.nodup_nil
  | k :: ks => by
    have hlength := List.length_filter_le (fun b => !b == k) ks
    rw [List.eraseDups_cons, List.nodup_cons]
    exact ⟨fun hk => by simp at hk, nodup_eraseDups _⟩
termination_by l => l.length

/-- One more key is new, or there already. -/
theorem eraseDups_concat (l : List κ) (k : κ) :
    (l ++ [k]).eraseDups = if k ∈ l then l.eraseDups else l.eraseDups ++ [k] := by
  rw [List.eraseDups_append]
  split
  · next h => simp [List.removeAll, h]
  · next h => simp [List.removeAll, h, List.eraseDups_cons]

/-- A list of distinct keys is kept. -/
theorem eraseDups_of_nodup {l : List κ} (h : l.Nodup) : l.eraseDups = l := by
  induction l with
  | nil => rfl
  | cons k ks ih =>
    obtain ⟨hk, hks⟩ := List.nodup_cons.mp h
    have hkeep : ks.filter (fun b => !b == k) = ks :=
      List.filter_eq_self.mpr fun b hb => by
        have hne : b ≠ k := fun he => hk (he ▸ hb)
        simpa using hne
    rw [List.eraseDups_cons, hkeep, ih hks]

variable {key}

theorem mem_byKey {l : List α} {k : κ} {group : List α} :
    (k, group) ∈ byKey key l ↔ k ∈ l.map key ∧ group = l.filter fun a => key a = k := by
  simp only [byKey, List.mem_map, List.mem_eraseDups, Prod.mk.injEq]
  constructor
  · rintro ⟨k', hk, rfl, rfl⟩
    exact ⟨hk, rfl⟩
  · rintro ⟨hk, rfl⟩
    exact ⟨k, hk, rfl, rfl⟩

/-! ## One element after the other -/

theorem insert_groups (l : List α) (a : α) : ∀ {ks : List κ}, ks.Nodup →
    insert key a (ks.map fun k => (k, l.filter fun x => key x = k)) =
      if key a ∈ ks then ks.map fun k => (k, (l ++ [a]).filter fun x => key x = k)
      else (ks.map fun k => (k, (l ++ [a]).filter fun x => key x = k)) ++ [(key a, [a])]
  | [], _ => rfl
  | k :: ks, h => by
    obtain ⟨hk, hks⟩ := List.nodup_cons.mp h
    have hother : ∀ j, j ≠ key a →
        (l ++ [a]).filter (fun x => key x = j) = l.filter fun x => key x = j := by
      intro j hj
      rw [List.filter_append, List.filter_cons_of_neg (by simpa using Ne.symm hj), List.filter_nil,
        List.append_nil]
    rw [List.map_cons, insert]
    by_cases he : k = key a
    · subst he
      rw [if_pos rfl, if_pos List.mem_cons_self, List.map_cons]
      refine congrArg₂ List.cons ?_ (List.map_congr_left fun j hj => ?_)
      · simp [List.filter_append]
      · rw [hother j fun hjk => hk (hjk ▸ hj)]
    · have hmem : key a ∈ k :: ks ↔ key a ∈ ks := by simp [Ne.symm he]
      rw [if_neg he, insert_groups l a hks, List.map_cons, hother k he]
      simp only [hmem]
      split <;> rfl

/-- The groups with one more element. -/
theorem insert_byKey (l : List α) (a : α) : insert key a (byKey key l) = byKey key (l ++ [a]) := by
  rw [byKey, insert_groups l a (nodup_eraseDups _), byKey, List.map_append, List.map_singleton,
    eraseDups_concat]
  simp only [List.mem_eraseDups]
  split
  · rfl
  · next h =>
    have hnone : l.filter (fun x => key x = key a) = [] := by
      rw [List.filter_eq_nil_iff]
      intro x hx he
      exact h (List.mem_map.mpr ⟨x, hx, of_decide_eq_true he⟩)
    simp [hnone]

theorem foldl_insert_append (l l' : List α) :
    l'.foldl (fun groups a => insert key a groups) (byKey key l) = byKey key (l ++ l') := by
  induction l' generalizing l with
  | nil => rw [List.append_nil]; rfl
  | cons a l' ih => rw [List.foldl_cons, insert_byKey, ih, List.append_assoc, List.singleton_append]

theorem foldl_insert (l : List α) :
    l.foldl (fun groups a => insert key a groups) [] = byKey key l :=
  foldl_insert_append [] l

/-! ## A partition -/

theorem flatMap_insert (a : α) : ∀ groups : List (κ × List α),
    ((insert key a groups).flatMap Prod.snd).Perm (groups.flatMap Prod.snd ++ [a])
  | [] => List.Perm.refl _
  | (k, group) :: groups => by
    rw [insert]
    split
    · rw [List.flatMap_cons, List.flatMap_cons, List.append_assoc, List.append_assoc]
      exact List.perm_append_comm.append_left group
    · rw [List.flatMap_cons, List.flatMap_cons, List.append_assoc]
      exact (flatMap_insert a groups).append_left group

/-- Every element is in one group, once. -/
theorem flatMap_byKey (l : List α) : ((byKey key l).flatMap Prod.snd).Perm l := by
  induction l using List.reverseRecOn with
  | nil => exact List.Perm.refl _
  | append_singleton l a ih =>
    rw [← insert_byKey]
    exact (flatMap_insert a _).trans (ih.append_right [a])

end Grouping

end DiaryMemory
