import Mathlib.Data.List.Nodup
import Mathlib.Tactic.Common

/-!
# Keyed tables

A `Table key` is a list of rows in insertion order in which no two rows have the
same `key`. It is at once a database table with a primary key and an
insertion-ordered dictionary : `find?` reads the row at a key, `put` stores a row at
its own key (in place when the key is taken, at the end otherwise) and `discard`
drops the rows a test selects. The key is a function of the row, so a row can not
be stored under a key it does not carry.

The lemmas come in three groups : membership (`mem_put`, `mem_discard`), lookup
(`find?_put`, `find?_adjust`), and the list of rows itself (`rows_put_of_fresh`,
`rows_put_of_mem`), which fixes counts and orders.
-/

namespace DiaryMemory

/-- Rows in insertion order, no two of them with the same key. -/
structure Table {K V : Type} (key : V → K) where
  rows : List V
  nodup : (rows.map key).Nodup

namespace Table

variable {K V : Type} {key : V → K}

instance : Membership V (Table key) := ⟨fun t v => v ∈ t.rows⟩

@[simp]
theorem mem_rows {t : Table key} {v : V} : v ∈ t.rows ↔ v ∈ t := Iff.rfl

theorem ext_rows {t t' : Table key} (h : t.rows = t'.rows) : t = t' := by
  cases t
  cases t'
  cases h
  rfl

instance [DecidableEq V] : DecidableEq (Table key) := fun t t' =>
  decidable_of_iff (t.rows = t'.rows) ⟨ext_rows, fun h => h ▸ rfl⟩

/-- The table with no rows. -/
def empty : Table key := ⟨[], List.nodup_nil⟩

@[simp]
theorem not_mem_empty {v : V} : ¬ v ∈ (empty : Table key) := List.not_mem_nil

theorem eq_of_key {t : Table key} {v w : V} (hv : v ∈ t) (hw : w ∈ t) (h : key v = key w) :
    v = w :=
  List.inj_on_of_nodup_map t.nodup hv hw h

/-! ## Dropping rows -/

/-- Drop the rows that `p` selects. -/
def discard (t : Table key) (p : V → Bool) : Table key :=
  ⟨t.rows.filter fun v => !p v, t.nodup.sublist (List.Sublist.map key List.filter_sublist)⟩

@[simp]
theorem mem_discard {t : Table key} {p : V → Bool} {x : V} :
    x ∈ t.discard p ↔ x ∈ t ∧ p x = false := by
  rw [← mem_rows, discard, List.mem_filter]
  simp

/-- A row stays, or was selected. -/
theorem mem_discard_or {t : Table key} {p : V → Bool} {x : V} {gone : Prop} (hx : x ∈ t)
    (h : p x = true → gone) : x ∈ t.discard p ∨ gone := by
  cases hp : p x with
  | false => exact .inl (mem_discard.mpr ⟨hx, hp⟩)
  | true => exact .inr (h hp)

theorem discard_congr {t : Table key} {p q : V → Bool} (h : ∀ x ∈ t, p x = q x) :
    t.discard p = t.discard q :=
  ext_rows (List.filter_congr fun x hx => congrArg not (h x hx))

theorem length_discard (t : Table key) (p : V → Bool) :
    t.rows.length = (t.discard p).rows.length + t.rows.countP p := by
  rw [discard, ← List.countP_eq_length_filter, Nat.add_comm]
  simpa using List.length_eq_countP_add_countP p

theorem filter_discard {t : Table key} {p q : V → Bool} (h : ∀ x ∈ t, p x = true → q x = false) :
    (t.discard q).rows.filter p = t.rows.filter p := by
  rw [discard, List.filter_filter]
  refine List.filter_congr fun x hx => ?_
  cases hp : p x with
  | false => rfl
  | true => simp [h x hx hp]

/-! ## Rows that are kept -/

/-- Rows that are kept and then kept again, up to a relation, are kept but for those that went on
the way. -/
theorem kept_trans {R : V → V → Prop} {gone : V → Prop} {t t' t'' : Table key}
    (hR : ∀ {x y z}, R x y → R y z → R x z) (hgone : ∀ {x y}, R x y → gone y → gone x)
    (h : ∀ x ∈ t, (∃ y ∈ t', R x y) ∨ gone x) (h' : ∀ y ∈ t', (∃ z ∈ t'', R y z) ∨ gone y) :
    ∀ x ∈ t, (∃ z ∈ t'', R x z) ∨ gone x := by
  intro x hx
  rcases h x hx with ⟨y, hy, hxy⟩ | hx
  · rcases h' y hy with ⟨z, hz, hyz⟩ | hy
    · exact .inl ⟨z, hz, hR hxy hyz⟩
    · exact .inr (hgone hxy hy)
  · exact .inr hx

/-! ## Finding and storing -/

variable [DecidableEq K]

/-- The row at `k`. -/
def find? (t : Table key) (k : K) : Option V := t.rows.find? fun v => key v = k

/-- Replace the row at the key of `v`, or append `v`. -/
def putRow (key : V → K) (v : V) : List V → List V
  | [] => [v]
  | x :: xs => if key x = key v then v :: xs else x :: putRow key v xs

theorem putRow_of_fresh {v : V} :
    ∀ {xs : List V}, (∀ x ∈ xs, key x ≠ key v) → putRow key v xs = xs ++ [v]
  | [], _ => rfl
  | x :: xs, h => by
    rw [putRow, if_neg (h x (by simp)), putRow_of_fresh fun y hy => h y (by simp [hy])]
    rfl

theorem putRow_of_mem {v : V} :
    ∀ {xs : List V}, (xs.map key).Nodup → (∃ x ∈ xs, key x = key v) →
      putRow key v xs = xs.map fun x => if key x = key v then v else x
  | [], _, h => by simp at h
  | x :: xs, hn, h => by
    obtain ⟨hx, hn⟩ := List.nodup_cons.mp hn
    by_cases hk : key x = key v
    · have hrest : (xs.map fun y => if key y = key v then v else y) = xs.map id :=
        List.map_congr_left fun y hy => by
          have : key y ≠ key v := fun e => hx (List.mem_map.mpr ⟨y, hy, e.trans hk.symm⟩)
          simp [this]
      rw [putRow, if_pos hk, List.map_cons, if_pos hk, hrest, List.map_id]
    · have hmem : ∃ y ∈ xs, key y = key v := by
        obtain ⟨y, hy, he⟩ := h
        rcases List.mem_cons.mp hy with rfl | hy
        · exact absurd he hk
        · exact ⟨y, hy, he⟩
      rw [putRow, if_neg hk, List.map_cons, if_neg hk, putRow_of_mem hn hmem]

theorem map_key_putRow_of_mem {v : V} {xs : List V} (hn : (xs.map key).Nodup)
    (h : ∃ x ∈ xs, key x = key v) : (putRow key v xs).map key = xs.map key := by
  rw [putRow_of_mem hn h, List.map_map]
  refine List.map_congr_left fun x _ => ?_
  by_cases hk : key x = key v <;> simp [hk]

theorem nodup_putRow {v : V} {xs : List V} (hn : (xs.map key).Nodup) :
    ((putRow key v xs).map key).Nodup := by
  by_cases h : ∃ x ∈ xs, key x = key v
  · rw [map_key_putRow_of_mem hn h]
    exact hn
  · have hf : ∀ x ∈ xs, key x ≠ key v := fun x hx he => h ⟨x, hx, he⟩
    rw [putRow_of_fresh hf, List.map_append, List.nodup_append]
    refine ⟨hn, by simp, fun a ha b hb => ?_⟩
    obtain ⟨x, hx, rfl⟩ := List.mem_map.mp ha
    simp only [List.map_cons, List.map_nil, List.mem_singleton] at hb
    exact hb ▸ hf x hx

/-- Store `v` at its key. -/
def put (t : Table key) (v : V) : Table key := ⟨putRow key v t.rows, nodup_putRow t.nodup⟩

/-- Replace the row at `k` by its update. -/
def adjust (t : Table key) (k : K) (f : V → V) : Table key :=
  match t.find? k with
  | none => t
  | some v => t.put (f v)

/-- `put`, one row after the other. -/
def putAll (t : Table key) (vs : List V) : Table key := vs.foldl put t

/-! ## Rows and keys -/

theorem find?_eq_some_iff {t : Table key} {k : K} {v : V} :
    t.find? k = some v ↔ v ∈ t ∧ key v = k := by
  constructor
  · intro h
    exact ⟨List.mem_of_find?_eq_some h, by simpa using List.find?_some h⟩
  · rintro ⟨hv, rfl⟩
    cases h : t.find? (key v) with
    | none =>
      have hne : ¬ key v = key v := by simpa using List.find?_eq_none.mp h v hv
      exact absurd rfl hne
    | some w =>
      have hw : w ∈ t := List.mem_of_find?_eq_some h
      have hk : key w = key v := by simpa using List.find?_some h
      rw [eq_of_key hw hv hk]

theorem find?_eq_none_iff {t : Table key} {k : K} :
    t.find? k = none ↔ ∀ v ∈ t, key v ≠ k := by
  simp [find?, List.find?_eq_none]

theorem find?_key {t : Table key} {v : V} (h : v ∈ t) : t.find? (key v) = some v :=
  find?_eq_some_iff.mpr ⟨h, rfl⟩

theorem mem_of_find? {t : Table key} {k : K} {v : V} (h : t.find? k = some v) : v ∈ t :=
  (find?_eq_some_iff.mp h).1

theorem key_of_find? {t : Table key} {k : K} {v : V} (h : t.find? k = some v) : key v = k :=
  (find?_eq_some_iff.mp h).2

theorem isSome_find?_iff {t : Table key} {k : K} :
    (t.find? k).isSome ↔ ∃ v ∈ t, key v = k := by
  rw [Option.isSome_iff_exists]
  simp only [find?_eq_some_iff]

/-! ## Storing a row -/

theorem rows_put_of_fresh {t : Table key} {v : V} (h : ∀ x ∈ t, key x ≠ key v) :
    (t.put v).rows = t.rows ++ [v] :=
  putRow_of_fresh h

theorem rows_put_of_mem {t : Table key} {v : V} (h : ∃ x ∈ t, key x = key v) :
    (t.put v).rows = t.rows.map fun x => if key x = key v then v else x :=
  putRow_of_mem t.nodup h

@[simp]
theorem mem_put {t : Table key} {v x : V} : x ∈ t.put v ↔ x = v ∨ (x ∈ t ∧ key x ≠ key v) := by
  rw [← mem_rows]
  by_cases h : ∃ y ∈ t, key y = key v
  · rw [rows_put_of_mem h, List.mem_map]
    constructor
    · rintro ⟨y, hy, rfl⟩
      by_cases hk : key y = key v
      · exact Or.inl (if_pos hk)
      · rw [if_neg hk]
        exact Or.inr ⟨hy, hk⟩
    · rintro (rfl | ⟨hx, hk⟩)
      · obtain ⟨y, hy, he⟩ := h
        exact ⟨y, hy, if_pos he⟩
      · exact ⟨x, hx, if_neg hk⟩
  · have hf : ∀ y ∈ t, key y ≠ key v := fun y hy he => h ⟨y, hy, he⟩
    rw [rows_put_of_fresh hf, List.mem_append, List.mem_singleton, mem_rows]
    constructor
    · rintro (hx | rfl)
      · exact Or.inr ⟨hx, hf x hx⟩
      · exact Or.inl rfl
    · rintro (rfl | ⟨hx, _⟩)
      · exact Or.inr rfl
      · exact Or.inl hx

theorem mem_put_self {t : Table key} {v : V} : v ∈ t.put v := mem_put.mpr (Or.inl rfl)

theorem mem_put_of_ne {t : Table key} {v x : V} (hx : x ∈ t) (h : key x ≠ key v) :
    x ∈ t.put v :=
  mem_put.mpr (Or.inr ⟨hx, h⟩)

theorem mem_put_of_fresh {t : Table key} {v x : V} (h : ∀ y ∈ t, key y ≠ key v) :
    x ∈ t.put v ↔ x = v ∨ x ∈ t := by
  rw [mem_put]
  exact ⟨fun hx => hx.imp_right And.left, fun hx => hx.imp_right fun hx => ⟨hx, h x hx⟩⟩

/-- What holds of the rows and of the stored row holds of the rows after. -/
theorem forall_put {t : Table key} {v : V} {P : V → Prop} (h : ∀ x ∈ t, P x) (hv : P v) :
    ∀ x ∈ t.put v, P x := by
  intro x hx
  rcases mem_put.mp hx with rfl | ⟨hx, _⟩
  · exact hv
  · exact h x hx

/-- A key that is there stays there. -/
theorem exists_put {t : Table key} {v : V} {k : K} (h : ∃ x ∈ t, key x = k) :
    ∃ x ∈ t.put v, key x = k := by
  obtain ⟨x, hx, rfl⟩ := h
  by_cases hk : key x = key v
  · exact ⟨v, mem_put_self, hk.symm⟩
  · exact ⟨x, mem_put_of_ne hx hk, rfl⟩

theorem find?_put {t : Table key} {v : V} {k : K} :
    (t.put v).find? k = if key v = k then some v else t.find? k := by
  split
  · next h => exact find?_eq_some_iff.mpr ⟨mem_put_self, h⟩
  · next h =>
    cases hf : t.find? k with
    | none =>
      refine find?_eq_none_iff.mpr fun x hx he => ?_
      rcases mem_put.mp hx with rfl | ⟨hx, _⟩
      · exact h he
      · exact find?_eq_none_iff.mp hf x hx he
    | some x =>
      obtain ⟨hx, rfl⟩ := find?_eq_some_iff.mp hf
      exact find?_key (mem_put_of_ne hx fun he => h he.symm)

/-! ## Updating a row -/

section Adjust

variable {f : V → V} (hf : ∀ v, key (f v) = key v)
include hf

theorem rows_adjust (t : Table key) (k : K) :
    (t.adjust k f).rows = t.rows.map fun v => if key v = k then f v else v := by
  unfold adjust
  split
  · next h =>
    conv_lhs => rw [← List.map_id t.rows]
    exact List.map_congr_left fun v hv => by simp [find?_eq_none_iff.mp h v hv]
  · next v h =>
    obtain ⟨hv, rfl⟩ := find?_eq_some_iff.mp h
    rw [rows_put_of_mem ⟨v, hv, (hf v).symm⟩]
    refine List.map_congr_left fun x hx => ?_
    rw [hf v]
    split
    · next h => rw [eq_of_key hx hv h]
    · rfl

theorem mem_adjust {t : Table key} {k : K} {x : V} :
    x ∈ t.adjust k f ↔ ∃ v ∈ t, x = if key v = k then f v else v := by
  rw [← mem_rows, rows_adjust hf, List.mem_map]
  exact exists_congr fun v => and_congr_right fun _ => eq_comm

theorem find?_adjust {t : Table key} {k k' : K} :
    (t.adjust k f).find? k' = (t.find? k').map fun v => if k' = k then f v else v := by
  cases h : t.find? k' with
  | none =>
    refine find?_eq_none_iff.mpr fun x hx he => ?_
    obtain ⟨v, hv, rfl⟩ := (mem_adjust hf).mp hx
    refine find?_eq_none_iff.mp h v hv ?_
    split at he
    · rwa [hf v] at he
    · exact he
  | some v =>
    obtain ⟨hv, rfl⟩ := find?_eq_some_iff.mp h
    refine find?_eq_some_iff.mpr ⟨(mem_adjust hf).mpr ⟨v, hv, rfl⟩, ?_⟩
    split
    · exact hf v
    · rfl

end Adjust

/-! ## Storing several rows -/

@[simp]
theorem putAll_nil (t : Table key) : t.putAll [] = t := rfl

@[simp]
theorem putAll_cons (t : Table key) (v : V) (vs : List V) :
    t.putAll (v :: vs) = (t.put v).putAll vs := rfl

theorem forall_putAll {P : V → Prop} :
    ∀ {vs : List V} {t : Table key}, (∀ x ∈ t, P x) → (∀ v ∈ vs, P v) → ∀ x ∈ t.putAll vs, P x
  | [], _, h, _ => h
  | v :: vs, t, h, hv => by
    rw [putAll_cons]
    exact forall_putAll (forall_put h (hv v List.mem_cons_self))
      fun w hw => hv w (List.mem_cons_of_mem _ hw)

theorem exists_putAll {k : K} :
    ∀ {vs : List V} {t : Table key}, (∃ x ∈ t, key x = k) → ∃ x ∈ t.putAll vs, key x = k
  | [], _, h => h
  | v :: vs, t, h => by
    rw [putAll_cons]
    exact exists_putAll (exists_put h)

theorem mem_putAll_of_fresh :
    ∀ {vs : List V} {t : Table key} {x : V}, (vs.map key).Nodup →
      (∀ v ∈ vs, ∀ y ∈ t, key y ≠ key v) → (x ∈ t.putAll vs ↔ x ∈ vs ∨ x ∈ t)
  | [], t, x, _, _ => by simp
  | v :: vs, t, x, hn, hf => by
    obtain ⟨hv, hn⟩ := List.nodup_cons.mp hn
    have hfresh : ∀ w ∈ vs, ∀ y ∈ t.put v, key y ≠ key w := by
      intro w hw y hy he
      rcases mem_put.mp hy with rfl | ⟨hy, _⟩
      · exact hv (List.mem_map.mpr ⟨w, hw, he.symm⟩)
      · exact hf w (by simp [hw]) y hy he
    rw [putAll_cons, mem_putAll_of_fresh hn hfresh, mem_put_of_fresh (hf v (by simp)),
      List.mem_cons]
    tauto

theorem rows_putAll_of_fresh :
    ∀ {vs : List V} {t : Table key}, (vs.map key).Nodup →
      (∀ v ∈ vs, ∀ y ∈ t, key y ≠ key v) → (t.putAll vs).rows = t.rows ++ vs
  | [], t, _, _ => (List.append_nil t.rows).symm
  | v :: vs, t, hn, hf => by
    obtain ⟨hv, hn⟩ := List.nodup_cons.mp hn
    have hput : (t.put v).rows = t.rows ++ [v] := rows_put_of_fresh (hf v List.mem_cons_self)
    have hfresh : ∀ w ∈ vs, ∀ y ∈ t.put v, key y ≠ key w := by
      intro w hw y hy he
      rcases mem_put.mp hy with rfl | ⟨hy, _⟩
      · exact hv (List.mem_map.mpr ⟨w, hw, he.symm⟩)
      · exact hf w (List.mem_cons_of_mem v hw) y hy he
    rw [putAll_cons, rows_putAll_of_fresh hn hfresh, hput, List.append_assoc, List.singleton_append]

/-! ## The rows a test does not select -/

section Filter

variable {t : Table key} {p : V → Bool}

/-- A row that is not selected, stored in the place of none that is. -/
theorem filter_put {v : V} (hv : p v = false) (h : ∀ x ∈ t, key x = key v → p x = false) :
    (t.put v).rows.filter p = t.rows.filter p := by
  by_cases hex : ∃ x ∈ t, key x = key v
  · obtain ⟨x, hx, hk⟩ := hex
    rw [rows_put_of_mem ⟨x, hx, hk⟩, List.filter_map]
    have hsame : t.rows.filter (p ∘ fun y => if key y = key v then v else y) = t.rows.filter p := by
      refine List.filter_congr fun y hy => ?_
      by_cases he : key y = key v
      · simp [he, hv, h y hy he]
      · simp [he]
    rw [hsame]
    conv_rhs => rw [← List.map_id (t.rows.filter p)]
    refine List.map_congr_left fun y hy => ?_
    obtain ⟨hy, hp⟩ := List.mem_filter.mp hy
    rw [if_neg fun he => ?_]
    · rfl
    · rw [h y hy he] at hp
      cases hp
  · rw [rows_put_of_fresh fun x hx he => hex ⟨x, hx, he⟩, List.filter_append,
      List.filter_singleton, hv, cond_false, List.append_nil]

theorem filter_putAll :
    ∀ {vs : List V} {t : Table key}, (∀ v ∈ vs, p v = false) →
      (∀ v ∈ vs, ∀ x ∈ t, key x = key v → p x = false) →
      (t.putAll vs).rows.filter p = t.rows.filter p
  | [], _, _, _ => rfl
  | v :: vs, t, hv, h => by
    have hhead := hv v List.mem_cons_self
    rw [putAll_cons, filter_putAll (fun w hw => hv w (List.mem_cons_of_mem _ hw)) fun w hw x hx he => ?_,
      filter_put hhead (h v List.mem_cons_self)]
    rcases mem_put.mp hx with rfl | ⟨hx, -⟩
    · exact hhead
    · exact h w (List.mem_cons_of_mem _ hw) x hx he

theorem filter_adjust {f : V → V} (hf : ∀ v, key (f v) = key v) {k : K}
    (h : ∀ x ∈ t, key x = k → p x = false ∧ p (f x) = false) :
    (t.adjust k f).rows.filter p = t.rows.filter p := by
  unfold adjust
  cases hfind : t.find? k with
  | none => rfl
  | some v =>
    obtain ⟨hv, rfl⟩ := find?_eq_some_iff.mp hfind
    exact filter_put (h v hv rfl).2 fun x hx he => (h x hx (he.trans (hf v))).1

end Filter

end Table

end DiaryMemory
