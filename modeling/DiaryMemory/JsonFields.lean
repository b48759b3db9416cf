import DiaryMemory.JsonRoundTrip
import Mathlib.Data.List.Sort
import Mathlib.Data.String.Basic

/-!
# The fields of objects

An object may name a field twice, and a dict made of it holds the last value (`asDict`). With
`sort_keys` a dict is written with its names in order, at every depth (`Value.sortKeys`). Neither
changes what is found under a name when the names are distinct (`asDict_of_nodup`,
`lookup_of_perm`).
-/

namespace DiaryMemory.JsonText

variable {V W : Type}

/-- The names of fields. -/
def names (fields : List (String × V)) : List String := fields.map Prod.fst

/-! ## Dicts -/

/-- The dict of these fields : the last value of a name, where it was named first. -/
def asDict : List (String × V) → List (String × V)
  | [] => []
  | (name, v) :: fields =>
    match (asDict fields).lookup name with
    | none => (name, v) :: asDict fields
    | some last => (name, last) :: (asDict fields).filter fun f => f.1 != name

theorem lookup_eq_none_of_names {fields : List (String × V)} {name : String}
    (h : name ∉ names fields) : fields.lookup name = none :=
  List.lookup_eq_none_iff.mpr fun f hf => by
    rw [bne_iff_ne]
    rintro rfl
    exact h (List.mem_map_of_mem hf)

/-- Distinct names make their own dict. -/
theorem asDict_of_nodup : ∀ {fields : List (String × V)}, (names fields).Nodup →
    asDict fields = fields
  | [], _ => rfl
  | (name, v) :: fields, h => by
    obtain ⟨hnew, hrest⟩ := List.nodup_cons.mp h
    rw [asDict, asDict_of_nodup hrest, lookup_eq_none_of_names hnew]

/-- A field of distinct names is found. -/
theorem mem_iff_lookup : ∀ {fields : List (String × V)}, (names fields).Nodup →
    ∀ {name : String} {v : V}, (name, v) ∈ fields ↔ fields.lookup name = some v
  | [], _, name, v => by simp
  | (head, u) :: fields, h, name, v => by
    obtain ⟨hnew, hrest⟩ := List.nodup_cons.mp h
    rw [List.mem_cons, mem_iff_lookup hrest, List.lookup_cons]
    by_cases hname : name = head
    · subst hname
      simp [lookup_eq_none_of_names hnew, eq_comm]
    · simp [hname, beq_eq_false_iff_ne.mpr hname]

/-- What is found does not depend on the order. -/
theorem lookup_of_perm {fields fields' : List (String × V)} (h : fields.Perm fields')
    (hnodup : (names fields).Nodup) (name : String) : fields.lookup name = fields'.lookup name := by
  have hnodup' : (names fields').Nodup := (h.map Prod.fst).nodup_iff.mp hnodup
  ext v
  rw [← mem_iff_lookup hnodup, ← mem_iff_lookup hnodup', h.mem_iff]

theorem lookup_map (f : V → W) (fields : List (String × V)) (name : String) :
    (fields.map fun x => (x.1, f x.2)).lookup name = (fields.lookup name).map f := by
  induction fields with
  | nil => rfl
  | cons field fields ih =>
    rw [List.map_cons, List.lookup_cons, List.lookup_cons, ih]
    cases name == field.1 <;> rfl

theorem names_map (f : V → W) (fields : List (String × V)) :
    names (fields.map fun x => (x.1, f x.2)) = names fields := by
  rw [names, names, List.map_map]
  rfl

/-! ## Sorted names -/

mutual

/-- The value with the fields of every object sorted by their names. -/
def Value.sortKeys : Value → Value
  | .list items => .list (sortItems items)
  | .dict fields => .dict ((sortValues fields).insertionSort fun f g => f.1 ≤ g.1)
  | v => v

/-- Sort within items. -/
def sortItems : List Value → List Value
  | [] => []
  | v :: vs => v.sortKeys :: sortItems vs

/-- Sort within the values of fields. -/
def sortValues : List (String × Value) → List (String × Value)
  | [] => []
  | (name, v) :: fields => (name, v.sortKeys) :: sortValues fields

end

theorem sortItems_eq (vs : List Value) : sortItems vs = vs.map Value.sortKeys := by
  induction vs with
  | nil => rfl
  | cons v vs ih => rw [sortItems, ih, List.map_cons]

theorem sortValues_eq (fields : List (String × Value)) :
    sortValues fields = fields.map fun x => (x.1, x.2.sortKeys) := by
  induction fields with
  | nil => rfl
  | cons field fields ih => rw [sortValues, ih, List.map_cons]

/-- The sorted fields are a permutation, up to their values. -/
theorem perm_sortValues (fields : List (String × Value)) :
    ((sortValues fields).insertionSort fun f g => f.1 ≤ g.1).Perm
      (fields.map fun x => (x.1, x.2.sortKeys)) := by
  rw [sortValues_eq]
  exact List.perm_insertionSort _ _

/-- A list of strings is written as it is. -/
theorem sortKeys_strings (texts : List String) :
    (Value.list (texts.map .str)).sortKeys = .list (texts.map .str) := by
  rw [Value.sortKeys, sortItems_eq, List.map_map]
  rfl

end DiaryMemory.JsonText
