import DiaryMemory.DateTexts
import DiaryMemory.Tables

/-!
# Instants as text

SQLite keeps an instant as the text of `datetime.isoformat()` and compares texts, where
Python compares instants. The fields of the text have fixed widths, up to the microseconds,
which are left out when they are zero : a whole second goes on with the `+` of the offset,
which is below the `.` of any other. So the two orders are one (`isoformat_lt_iff`).
-/

namespace DiaryMemory

/-- The microseconds, unless they are zero. -/
def fractionChars (microsecond : Nat) : List Char :=
  if microsecond = 0 then [] else '.' :: padded 6 microsecond

example : DateTime.mayNinth.isoformat = "2026-05-09T00:00:00+00:00" := by decide

/-! ## Texts of one width -/

/-- Texts that begin with parts of one length are compared part by part. -/
theorem append_lt_append_iff {α : Type} [LT α] {x x' y y' : List α}
    (h : x.length = x'.length) : x ++ y < x' ++ y' ↔ x < x' ∨ x = x' ∧ y < y' := by
  induction x generalizing x' with
  | nil =>
    obtain rfl := List.length_eq_zero_iff.mp h.symm
    simp
  | cons a x ih =>
    cases x' with
    | nil => simp at h
    | cons a' x' =>
      rw [List.cons_append, List.cons_append, List.cons_lt_cons_iff, List.cons_lt_cons_iff,
        ih (Nat.succ.inj h), List.cons_eq_cons]
      tauto

theorem digitChar_lt_iff {n m : Nat} (hn : n < 10) (hm : m < 10) :
    (digitChar n < digitChar m ↔ n < m) ∧ (digitChar n = digitChar m ↔ n = m) := by
  have hall : ∀ n < 10, ∀ m < 10,
      (digitChar n < digitChar m ↔ n < m) ∧ (digitChar n = digitChar m ↔ n = m) := by decide
  exact hall n hn m hm

theorem padded_inj {width n m : Nat} (hn : n < 10 ^ width) (hm : m < 10 ^ width) :
    padded width n = padded width m ↔ n = m := by
  refine ⟨fun he => ?_, fun he => he ▸ rfl⟩
  have hread := parseDigits_padded width 0 n hn []
  rw [he, parseDigits_padded width 0 m hm []] at hread
  simpa using hread.symm

/-- A number is compared by its digits. -/
theorem padded_lt_iff (width : Nat) {n m : Nat} (hn : n < 10 ^ width) (hm : m < 10 ^ width) :
    padded width n < padded width m ↔ n < m := by
  induction width generalizing n m with
  | zero =>
    obtain rfl : n = 0 := by simpa using hn
    obtain rfl : m = 0 := by simpa using hm
    simp [padded]
  | succ width ih =>
    have hpos : 0 < 10 ^ width := Nat.pow_pos (by decide)
    have hdigit : ∀ {k : Nat}, k < 10 ^ (width + 1) → k / 10 ^ width < 10 := fun hk =>
      Nat.div_lt_of_lt_mul (Nat.pow_succ .. ▸ hk)
    obtain ⟨hlt, heq⟩ := digitChar_lt_iff (hdigit hn) (hdigit hm)
    rw [padded_cons, padded_cons, List.cons_lt_cons_iff, hlt, heq,
      ih (Nat.mod_lt n hpos) (Nat.mod_lt m hpos)]
    have hn' := Nat.div_add_mod n (10 ^ width)
    have hm' := Nat.div_add_mod m (10 ^ width)
    have hnr := Nat.mod_lt n hpos
    have hmr := Nat.mod_lt m hpos
    rcases lt_trichotomy (n / 10 ^ width) (m / 10 ^ width) with h | h | h
    · have hnext := Nat.mul_le_mul_left (10 ^ width) h
      rw [Nat.mul_succ] at hnext
      omega
    · rw [h] at hn' ⊢
      omega
    · have hnext := Nat.mul_le_mul_left (10 ^ width) h
      rw [Nat.mul_succ] at hnext
      omega

/-- A field of a text, and what follows it. -/
theorem field_lt_iff {width n m : Nat} (hn : n < 10 ^ width) (hm : m < 10 ^ width)
    {y y' : List Char} :
    padded width n ++ y < padded width m ++ y' ↔ n < m ∨ n = m ∧ y < y' := by
  rw [append_lt_append_iff (by simp), padded_lt_iff width hn hm, padded_inj hn hm]

/-- The fraction of a second, before the offset. -/
theorem fraction_lt_iff {n m : Nat} (hn : n < 10 ^ 6) (hm : m < 10 ^ 6) {offset : List Char} :
    fractionChars n ++ '+' :: offset < fractionChars m ++ '+' :: offset ↔ n < m := by
  have hplus : ('+' : Char) < '.' ∧ ¬ ('.' : Char) < '+' ∧ ('.' : Char) ≠ '+' := by decide
  unfold fractionChars
  split <;> split
  · simp [*]
  · have hm0 : 0 < m := by omega
    simp [*, List.cons_lt_cons_iff]
  · simp [*, List.cons_lt_cons_iff]
  · rw [List.cons_append, List.cons_append, List.cons_lt_cons_self, field_lt_iff hn hm]
    simp

/-! ## Instants -/

theorem DateTime.toList_isoformat (t : DateTime) :
    t.isoformat.toList = padded 4 t.date.year ++ '-' :: (padded 2 t.date.month ++ '-' ::
      (padded 2 t.date.day ++ 'T' :: (padded 2 t.hour ++ ':' :: (padded 2 t.minute ++ ':' ::
        (padded 2 t.second ++ (fractionChars t.microsecond ++
          ['+', '0', '0', ':', '0', '0'])))))) := by
  have hfraction : (if t.microsecond = 0 then "" else
      "." ++ String.ofList (padded 6 t.microsecond)).toList = fractionChars t.microsecond := by
    unfold fractionChars
    split
    · rfl
    · simp
  simp [DateTime.isoformat, Date.isoformat, hfraction]

/-- Texts of instants are ordered as the instants are. -/
theorem DateTime.isoformat_lt_iff {t t' : DateTime} : t.isoformat < t'.isoformat ↔ t < t' := by
  have hdays := daysInMonth_le t.date.year t.date.month
  have hdays' := daysInMonth_le t'.date.year t'.date.month
  obtain ⟨⟨-, hy⟩, ⟨-, hmo⟩, -, hd⟩ := t.date.valid
  obtain ⟨⟨-, hy'⟩, ⟨-, hmo'⟩, -, hd'⟩ := t'.date.valid
  obtain ⟨hh, hmi, hs, hu⟩ := t.valid
  obtain ⟨hh', hmi', hs', hu'⟩ := t'.valid
  rw [String.lt_iff_toList_lt, toList_isoformat, toList_isoformat,
    field_lt_iff (by omega) (by omega), List.cons_lt_cons_self,
    field_lt_iff (by omega) (by omega), List.cons_lt_cons_self,
    field_lt_iff (by omega) (by omega), List.cons_lt_cons_self,
    field_lt_iff (by omega) (by omega), List.cons_lt_cons_self,
    field_lt_iff (by omega) (by omega), List.cons_lt_cons_self,
    field_lt_iff (by omega) (by omega), fraction_lt_iff hu hu']
  change _ ↔ t.stamp < t'.stamp
  simp only [DateTime.stamp, Date.stamp]
  omega

theorem DateTime.isoformat_inj {t t' : DateTime} : t.isoformat = t'.isoformat ↔ t = t' := by
  refine ⟨fun he => ?_, fun he => he ▸ rfl⟩
  have hlt : ¬ t < t' := mt isoformat_lt_iff.mpr he.not_lt
  have hgt : ¬ t' < t := mt isoformat_lt_iff.mpr he.symm.not_lt
  exact le_antisymm (not_lt.mp hgt) (not_lt.mp hlt)

/-- A tie between texts is broken as one between instants. -/
theorem DateTime.isoformat_le_iff {t t' : DateTime} {id id' : String} :
    toLex (t.isoformat, id) ≤ toLex (t'.isoformat, id') ↔ toLex (t, id) ≤ toLex (t', id') := by
  rw [Prod.Lex.toLex_le_toLex, Prod.Lex.toLex_le_toLex, isoformat_lt_iff, isoformat_inj]

end DiaryMemory
