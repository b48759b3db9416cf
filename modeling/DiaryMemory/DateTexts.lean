import DiaryMemory.NoteParser
import DiaryMemory.Texts
import Mathlib.Tactic.Linarith
import Mathlib.Tactic.Ring

/-!
# Texts that name a date

`parseDigits` reads exactly the padded numbers, so `Date.fromisoformat` reads back what
`Date.isoformat` writes. It reads more than that : `WideDate` lists the other texts it accepts,
dates without separators and ISO weeks (`fromisoformat_eq_some_iff`). `normalizeIsoDateToken`
accepts the six zero-padded forms (`normalizeIsoDateToken_eq_some_iff`), with the day first
where the year comes last.
-/

namespace DiaryMemory

open PyText Trimming

/-! ## Digits -/

/-- The digit of `n`. -/
def digitChar (n : Nat) : Char := Char.ofNat (48 + n % 10)

theorem digitChar_spec (n : Nat) :
    digitValue (digitChar n) = some (n % 10) ∧ (digitChar n).utf8Size = 1 ∧
      isSpace (digitChar n) = false ∧ digitChar n ≠ '-' ∧ digitChar n ≠ 'W' := by
  have hall : ∀ e ∈ List.range 10, digitValue (Char.ofNat (48 + e)) = some e ∧
      (Char.ofNat (48 + e)).utf8Size = 1 ∧ isSpace (Char.ofNat (48 + e)) = false ∧
      Char.ofNat (48 + e) ≠ '-' ∧ Char.ofNat (48 + e) ≠ 'W' := by decide
  exact hall (n % 10) (List.mem_range.mpr (Nat.mod_lt n (by decide)))

/-- A digit is the character of its value. -/
theorem eq_digitChar {c : Char} {d : Nat} (h : digitValue c = some d) : d < 10 ∧ c = digitChar d := by
  unfold digitValue at h
  split at h
  · rename_i hc
    cases h
    have hlow : 48 ≤ c.toNat := hc.1
    have hhigh : c.toNat ≤ 57 := hc.2
    have hd : c.toNat - 48 < 10 := by omega
    refine ⟨hd, ?_⟩
    rw [digitChar, Nat.mod_eq_of_lt hd, Nat.add_sub_cancel' hlow, Char.ofNat_toNat]
  · cases h

theorem padded_succ (width n : Nat) :
    padded (width + 1) n = padded width (n / 10) ++ [digitChar n] := rfl

theorem padded_zero (n : Nat) : padded 0 n = [] := rfl

@[simp] theorem length_padded (width n : Nat) : (padded width n).length = width := by
  induction width generalizing n with
  | zero => rfl
  | succ width ih => rw [padded_succ, List.length_append, ih, List.length_singleton]

/-- Every character of a padded number is a digit. -/
theorem mem_padded {width n : Nat} {c : Char} (h : c ∈ padded width n) : ∃ d, c = digitChar d := by
  induction width generalizing n with
  | zero => cases h
  | succ width ih =>
    rcases List.mem_append.mp h with h | h
    · exact ih h
    · exact ⟨n, List.mem_singleton.mp h⟩

/-- The first digit of a padded number, and the others. -/
theorem padded_cons (width n : Nat) :
    padded (width + 1) n = digitChar (n / 10 ^ width) :: padded width (n % 10 ^ width) := by
  induction width generalizing n with
  | zero =>
    rw [padded_succ, Nat.pow_zero, Nat.div_one]
    rfl
  | succ width ih =>
    have hdiv : n / 10 / 10 ^ width = n / 10 ^ (width + 1) := by
      rw [Nat.div_div_eq_div_mul, Nat.pow_succ, Nat.mul_comm]
    have hmod : n / 10 % 10 ^ width = n % 10 ^ (width + 1) / 10 := by
      rw [Nat.pow_succ, Nat.mul_comm, Nat.mod_mul_right_div_self]
    have hlast : digitChar (n % 10 ^ (width + 1)) = digitChar n := by
      rw [digitChar, digitChar, Nat.pow_succ, Nat.mod_mul_left_mod]
    rw [padded_succ, ih, List.cons_append, hdiv, hmod, ← hlast, ← padded_succ]

/-- A padded number is read to its end. -/
theorem parseDigits_padded (width acc n : Nat) (hn : n < 10 ^ width) (cs : List Char) :
    parseDigits width acc (padded width n ++ cs) = some (acc * 10 ^ width + n, cs) := by
  induction width generalizing acc n with
  | zero =>
    obtain rfl : n = 0 := by simpa using hn
    simp [parseDigits, padded]
  | succ width ih =>
    have hfirst : n / 10 ^ width < 10 := by
      rw [Nat.div_lt_iff_lt_mul (Nat.pow_pos (by decide)), Nat.mul_comm, ← Nat.pow_succ]
      exact hn
    have hsum : (acc * 10 + n / 10 ^ width) * 10 ^ width + n % 10 ^ width =
        acc * 10 ^ (width + 1) + n := by
      have := Nat.div_add_mod n (10 ^ width)
      rw [Nat.pow_succ]
      nlinarith
    rw [padded_cons, List.cons_append, parseDigits, (digitChar_spec _).1, Nat.mod_eq_of_lt hfirst]
    simp only
    rw [ih _ _ (Nat.mod_lt _ (Nat.pow_pos (by decide))), hsum]

/-- What is read as a number is a padded number. -/
theorem of_parseDigits {width acc v : Nat} {cs rest : List Char}
    (h : parseDigits width acc cs = some (v, rest)) :
    ∃ n < 10 ^ width, v = acc * 10 ^ width + n ∧ cs = padded width n ++ rest := by
  induction width generalizing acc cs with
  | zero =>
    cases h
    exact ⟨0, by decide, by simp, rfl⟩
  | succ width ih =>
    cases cs with
    | nil => cases h
    | cons c cs =>
      rw [parseDigits] at h
      split at h
      · cases h
      · rename_i d hd
        obtain ⟨hd10, rfl⟩ := eq_digitChar hd
        obtain ⟨n, hn, rfl, rfl⟩ := ih h
        have hlt : d * 10 ^ width + n < 10 ^ (width + 1) := by
          rw [Nat.pow_succ]
          nlinarith
        refine ⟨d * 10 ^ width + n, hlt, by rw [Nat.pow_succ]; ring, ?_⟩
        have hdiv : (d * 10 ^ width + n) / 10 ^ width = d := by
          rw [Nat.add_comm, Nat.add_mul_div_right _ _ (Nat.pow_pos (by decide)),
            Nat.div_eq_of_lt hn, Nat.zero_add]
        have hmod : (d * 10 ^ width + n) % 10 ^ width = n := by
          rw [Nat.add_comm, Nat.add_mul_mod_self_right, Nat.mod_eq_of_lt hn]
        rw [padded_cons, hdiv, hmod, List.cons_append]

/-! ## The texts `Date.fromisoformat` reads -/

/-- The bytes of a text. -/
def bytes (cs : List Char) : Nat := (String.ofList cs).utf8ByteSize

@[simp] theorem bytes_nil : bytes [] = 0 := rfl

theorem bytes_append (a b : List Char) : bytes (a ++ b) = bytes a + bytes b := by
  rw [bytes, String.ofList_append, String.utf8ByteSize_append]
  rfl

theorem bytes_cons (c : Char) (cs : List Char) : bytes (c :: cs) = c.utf8Size + bytes cs := by
  rw [← List.singleton_append, bytes_append]
  congr 1
  exact String.utf8ByteSize_singleton

@[simp] theorem bytes_padded (width n : Nat) : bytes (padded width n) = width := by
  induction width generalizing n with
  | zero => rfl
  | succ width ih => rw [padded_succ, bytes_append, ih, bytes_cons, (digitChar_spec n).2.1, bytes_nil]

theorem bytes_eq_zero {cs : List Char} (h : bytes cs = 0) : cs = [] := by
  have := String.utf8ByteSize_eq_zero_iff.mp h
  simpa using this

/-- The texts that `Date.fromisoformat` takes for the date `d` besides `d.isoformat`. -/
inductive WideDate : List Char → Date → Prop
  | basic {d : Date} {rest : List Char} (hrest : bytes rest = 0 ∨ bytes rest = 2) :
      WideDate (padded 4 d.year ++ (padded 2 d.month ++ (padded 2 d.day ++ rest))) d
  | week {d : Date} {year week : Nat} {sep : List Char} (hyear : year < 10 ^ 4)
      (hweek : week < 10 ^ 2) (hsep : sep = [] ∨ sep = ['-'])
      (hdate : Date.ofIsoWeek? year week 1 = some d) :
      WideDate (padded 4 year ++ (sep ++ 'W' :: padded 2 week)) d
  | weekday {d : Date} {year week weekday : Nat} {rest : List Char} (hyear : year < 10 ^ 4)
      (hweek : week < 10 ^ 2) (hday : weekday < 10 ^ 1)
      (hrest : bytes rest = 0 ∨ bytes rest = 2)
      (hdate : Date.ofIsoWeek? year week weekday = some d) :
      WideDate (padded 4 year ++ 'W' :: (padded 2 week ++ (padded 1 weekday ++ rest))) d
  | separated {d : Date} {year week weekday : Nat} (hyear : year < 10 ^ 4)
      (hweek : week < 10 ^ 2) (hday : weekday < 10 ^ 1)
      (hdate : Date.ofIsoWeek? year week weekday = some d) :
      WideDate (padded 4 year ++ '-' :: 'W' :: (padded 2 week ++ '-' :: padded 1 weekday)) d

/-- The characters of a canonical date. -/
def isoChars (year month day : Nat) : List Char :=
  padded 4 year ++ '-' :: (padded 2 month ++ '-' :: padded 2 day)

theorem toList_isoformat (d : Date) : d.isoformat.toList = isoChars d.year d.month d.day := by
  simp [Date.isoformat, isoChars]

/-- What `Date.fromisoformat` does after the year and its separator. -/
def afterSeparator (year : Nat) (usesSeparator : Bool) (cs : List Char) : Option Date :=
  match cs with
  | 'W' :: cs => parseIsoWeek year usesSeparator cs
  | cs => do
    let (month, cs) ← parseDigits 2 0 cs
    let cs ← parseSeparator usesSeparator cs
    let (day, _) ← parseDigits 2 0 cs
    Date.ofYMD? year month day

/-- What `Date.fromisoformat` does after the year. -/
def afterYear (year : Nat) (cs : List Char) : Option Date :=
  afterSeparator year (cs.head? = some '-') (if cs.head? = some '-' then cs.tail else cs)

theorem fromisoformat_padded {text : String} {year : Nat} {cs : List Char} (hyear : year < 10 ^ 4)
    (htext : text.toList = padded 4 year ++ cs)
    (hsize : 4 + bytes cs = 7 ∨ 4 + bytes cs = 8 ∨ 4 + bytes cs = 10) :
    Date.fromisoformat text = afterYear year cs := by
  have hbytes : text.utf8ByteSize = 4 + bytes cs := by
    rw [← bytes_padded 4 year, ← bytes_append, ← htext, bytes, String.ofList_toList]
  rw [Date.fromisoformat, if_pos (hbytes ▸ hsize), htext, parseDigits_padded 4 0 year hyear,
    Nat.zero_mul, Nat.zero_add]
  rfl

theorem of_fromisoformat {text : String} {d : Date} (h : Date.fromisoformat text = some d) :
    ∃ year < 10 ^ 4, ∃ cs, text.toList = padded 4 year ++ cs ∧
      (bytes cs = 3 ∨ bytes cs = 4 ∨ bytes cs = 6) ∧ afterYear year cs = some d := by
  rw [Date.fromisoformat] at h
  split at h
  · rename_i hsize
    obtain ⟨⟨year, cs⟩, hparse, hafter⟩ := Option.bind_eq_some_iff.mp h
    obtain ⟨n, hn, rfl, htext⟩ := of_parseDigits hparse
    rw [Nat.zero_mul, Nat.zero_add] at hafter
    have hbytes : text.utf8ByteSize = 4 + bytes cs := by
      rw [← bytes_padded 4 n, ← bytes_append, ← htext, bytes, String.ofList_toList]
    exact ⟨n, hn, cs, htext, by omega, hafter⟩
  · cases h

/-- The separator, where there is one. -/
def sepChars (usesSeparator : Bool) : List Char := if usesSeparator then ['-'] else []

theorem parseSeparator_eq_some_iff {usesSeparator : Bool} {cs rest : List Char} :
    parseSeparator usesSeparator cs = some rest ↔ cs = sepChars usesSeparator ++ rest := by
  cases usesSeparator with
  | false => simp [parseSeparator, sepChars]
  | true =>
    unfold parseSeparator sepChars
    split
    · simp_all
    · simp_all
    · rename_i hnot
      simp only [reduceCtorEq, if_true, List.singleton_append, false_iff]
      exact hnot rest

@[simp] theorem bytes_sepChars (usesSeparator : Bool) :
    bytes (sepChars usesSeparator) = if usesSeparator then 1 else 0 := by
  cases usesSeparator <;> rfl

section Reading

variable {year : Nat} {usesSeparator : Bool} {cs : List Char} {d : Date}

theorem afterSeparator_date (h : cs.head? ≠ some 'W') :
    afterSeparator year usesSeparator cs = (do
      let (month, cs) ← parseDigits 2 0 cs
      let cs ← parseSeparator usesSeparator cs
      let (day, _) ← parseDigits 2 0 cs
      Date.ofYMD? year month day) := by
  unfold afterSeparator
  split
  · exact absurd rfl h
  · rfl

theorem of_parseIsoWeek (h : parseIsoWeek year usesSeparator cs = some d) :
    ∃ week < 10 ^ 2,
      (cs = padded 2 week ∧ Date.ofIsoWeek? year week 1 = some d) ∨
      ∃ weekday < 10 ^ 1, ∃ rest,
        cs = padded 2 week ++ (sepChars usesSeparator ++ (padded 1 weekday ++ rest)) ∧
          Date.ofIsoWeek? year week weekday = some d := by
  rw [parseIsoWeek] at h
  obtain ⟨⟨v, cs₁⟩, hparse, hrest⟩ := Option.bind_eq_some_iff.mp h
  obtain ⟨week, hweek, rfl, rfl⟩ := of_parseDigits hparse
  rw [Nat.zero_mul, Nat.zero_add] at hrest
  refine ⟨week, hweek, ?_⟩
  dsimp only at hrest
  split at hrest
  · rename_i hempty
    obtain rfl : cs₁ = [] := List.isEmpty_iff.mp hempty
    exact .inl ⟨List.append_nil _, hrest⟩
  · obtain ⟨cs₂, hsep, hday⟩ := Option.bind_eq_some_iff.mp hrest
    obtain ⟨⟨v, rest⟩, hparse, hdate⟩ := Option.bind_eq_some_iff.mp hday
    obtain ⟨weekday, hlt, rfl, rfl⟩ := of_parseDigits hparse
    rw [Nat.zero_mul, Nat.zero_add] at hdate
    rw [parseSeparator_eq_some_iff.mp hsep]
    exact .inr ⟨weekday, hlt, rest, rfl, hdate⟩

theorem of_afterSeparator (h : afterSeparator year usesSeparator cs = some d) :
    (∃ cs', cs = 'W' :: cs' ∧ parseIsoWeek year usesSeparator cs' = some d) ∨
    ∃ month < 10 ^ 2, ∃ day < 10 ^ 2, ∃ rest,
      cs = padded 2 month ++ (sepChars usesSeparator ++ (padded 2 day ++ rest)) ∧
        Date.ofYMD? year month day = some d := by
  unfold afterSeparator at h
  split at h
  · exact .inl ⟨_, rfl, h⟩
  · obtain ⟨⟨v, cs₁⟩, hparse, hafter⟩ := Option.bind_eq_some_iff.mp h
    obtain ⟨month, hmonth, rfl, rfl⟩ := of_parseDigits hparse
    obtain ⟨cs₂, hsep, hrest⟩ := Option.bind_eq_some_iff.mp hafter
    obtain ⟨⟨v, rest⟩, hparse, hdate⟩ := Option.bind_eq_some_iff.mp hrest
    obtain ⟨day, hday, rfl, rfl⟩ := of_parseDigits hparse
    simp only [Nat.zero_mul, Nat.zero_add] at hdate
    rw [parseSeparator_eq_some_iff.mp hsep]
    exact .inr ⟨month, hmonth, day, hday, rest, rfl, hdate⟩

theorem ofYMD?_eq_some_iff {month day : Nat} :
    Date.ofYMD? year month day = some d ↔ d.year = year ∧ d.month = month ∧ d.day = day := by
  unfold Date.ofYMD?
  split
  · constructor
    · rintro h
      cases h
      exact ⟨rfl, rfl, rfl⟩
    · rintro ⟨rfl, rfl, rfl⟩
      rfl
  · rename_i hvalid
    constructor
    · intro h
      cases h
    · rintro ⟨rfl, rfl, rfl⟩
      exact absurd d.valid hvalid

theorem Date.bounds (d : Date) : d.year < 10 ^ 4 ∧ d.month < 10 ^ 2 ∧ d.day < 10 ^ 2 := by
  obtain ⟨⟨-, hy⟩, ⟨-, hm⟩, -, hd⟩ := d.valid
  have := daysInMonth_le d.year d.month
  omega

end Reading

theorem head?_padded_append (width n : Nat) (cs : List Char) :
    (padded (width + 1) n ++ cs).head? = some (digitChar (n / 10 ^ width)) := by
  rw [padded_cons]
  rfl

theorem afterYear_dash (year : Nat) (cs : List Char) :
    afterYear year ('-' :: cs) = afterSeparator year true cs := by
  simp [afterYear]

theorem afterYear_plain {year : Nat} {cs : List Char} (h : cs.head? ≠ some '-') :
    afterYear year cs = afterSeparator year false cs := by
  simp [afterYear, h]

/-- A month, a day and nothing else is looked at. -/
theorem afterSeparator_padded (usesSeparator : Bool) (d : Date) (rest : List Char) :
    afterSeparator d.year usesSeparator
      (padded 2 d.month ++ (sepChars usesSeparator ++ (padded 2 d.day ++ rest))) = some d := by
  obtain ⟨-, hmonth, hday⟩ := d.bounds
  have hdate : Date.ofYMD? d.year d.month d.day = some d := ofYMD?_eq_some_iff.mpr ⟨rfl, rfl, rfl⟩
  rw [afterSeparator_date, parseDigits_padded 2 0 _ hmonth]
  · simp only [Option.bind_eq_bind, Option.bind_some, Nat.zero_mul, Nat.zero_add,
      parseSeparator_eq_some_iff.mpr rfl, parseDigits_padded 2 0 _ hday, hdate]
  · rw [head?_padded_append]
    simp [(digitChar_spec _).2.2.2.2]

theorem parseIsoWeek_week {year week : Nat} (usesSeparator : Bool) (hweek : week < 10 ^ 2) :
    parseIsoWeek year usesSeparator (padded 2 week) = Date.ofIsoWeek? year week 1 := by
  have hparse := parseDigits_padded 2 0 week hweek []
  rw [List.append_nil] at hparse
  simp [parseIsoWeek, hparse]

theorem parseIsoWeek_weekday {year week weekday : Nat} (usesSeparator : Bool)
    (hweek : week < 10 ^ 2) (hday : weekday < 10 ^ 1) (rest : List Char) :
    parseIsoWeek year usesSeparator
      (padded 2 week ++ (sepChars usesSeparator ++ (padded 1 weekday ++ rest))) =
      Date.ofIsoWeek? year week weekday := by
  have hne : (sepChars usesSeparator ++ (padded 1 weekday ++ rest)).isEmpty = false := by
    rw [padded_cons]
    simp
  simp only [parseIsoWeek, parseDigits_padded 2 0 week hweek, Option.bind_eq_bind, Option.bind_some,
    Nat.zero_mul, Nat.zero_add, hne, Bool.false_eq_true, if_false,
    parseSeparator_eq_some_iff.mpr rfl, parseDigits_padded 1 0 weekday hday]

/-- The texts `Date.fromisoformat` reads, and the dates it reads them as. -/
theorem fromisoformat_eq_some_iff {text : String} {d : Date} :
    Date.fromisoformat text = some d ↔ text = d.isoformat ∨ WideDate text.toList d := by
  have hdash : ('-').utf8Size = 1 := rfl
  have hw : ('W').utf8Size = 1 := rfl
  constructor
  · intro h
    obtain ⟨year, hyear, cs, htext, hsize, hafter⟩ := of_fromisoformat h
    by_cases hsep : cs.head? = some '-'
    · obtain ⟨cs, rfl⟩ : ∃ cs', cs = '-' :: cs' := by
        cases cs with
        | nil => cases hsep
        | cons c cs => exact ⟨cs, by rw [Option.some.inj hsep]⟩
      rw [afterYear_dash] at hafter
      rcases of_afterSeparator hafter with ⟨cs, rfl, hiso⟩ | ⟨month, hm, day, hd, rest, rfl, hdate⟩
      · obtain ⟨week, hweek, ⟨rfl, hdate⟩ | ⟨weekday, hk, rest, rfl, hdate⟩⟩ := of_parseIsoWeek hiso
        · exact .inr (htext ▸ .week hyear hweek (.inr rfl) hdate)
        · simp only [bytes_cons, bytes_append, bytes_padded, bytes_sepChars, if_true, hdash, hw] at hsize
          obtain rfl : rest = [] := bytes_eq_zero (by omega)
          rw [List.append_nil] at htext
          exact .inr (htext ▸ .separated hyear hweek hk hdate)
      · simp only [bytes_cons, bytes_append, bytes_padded, bytes_sepChars, if_true, hdash] at hsize
        obtain rfl : rest = [] := bytes_eq_zero (by omega)
        obtain ⟨rfl, rfl, rfl⟩ := ofYMD?_eq_some_iff.mp hdate
        left
        rw [← String.toList_inj, htext, toList_isoformat, isoChars, List.append_nil]
        rfl
    · rw [afterYear_plain hsep] at hafter
      rcases of_afterSeparator hafter with ⟨cs, rfl, hiso⟩ | ⟨month, hm, day, hd, rest, rfl, hdate⟩
      · obtain ⟨week, hweek, ⟨rfl, hdate⟩ | ⟨weekday, hk, rest, rfl, hdate⟩⟩ := of_parseIsoWeek hiso
        · exact .inr (htext ▸ .week hyear hweek (.inl rfl) hdate)
        · simp only [bytes_cons, bytes_append, bytes_padded, bytes_sepChars, Bool.false_eq_true,
            if_false, hw] at hsize
          exact .inr (htext ▸ .weekday hyear hweek hk (by omega) hdate)
      · simp only [bytes_append, bytes_padded, bytes_sepChars, Bool.false_eq_true, if_false] at hsize
        obtain ⟨rfl, rfl, rfl⟩ := ofYMD?_eq_some_iff.mp hdate
        exact .inr (htext ▸ .basic (by omega))
  · rintro (rfl | hwide)
    · obtain ⟨hyear, -, -⟩ := d.bounds
      rw [fromisoformat_padded hyear (toList_isoformat d), afterYear_dash]
      · have hread := afterSeparator_padded true d []
        rw [List.append_nil] at hread
        exact hread
      · simp [bytes_cons, bytes_append, hdash]
    · generalize htext : text.toList = cs at hwide
      cases hwide with
      | @basic _ rest hrest =>
        obtain ⟨hyear, -, -⟩ := d.bounds
        rw [fromisoformat_padded hyear htext, afterYear_plain]
        · exact afterSeparator_padded false d rest
        · rw [head?_padded_append]
          simp [(digitChar_spec _).2.2.2.1]
        · simp only [bytes_append, bytes_padded]
          omega
      | week hyear hweek hsep hdate =>
        rw [fromisoformat_padded hyear htext, ← hdate]
        · rcases hsep with rfl | rfl
          · rw [List.nil_append, afterYear_plain (by simp)]
            exact parseIsoWeek_week false hweek
          · rw [List.singleton_append, afterYear_dash]
            exact parseIsoWeek_week true hweek
        · rcases hsep with rfl | rfl
          · simp [bytes_cons, hw]
          · simp [bytes_cons, hw, hdash]
      | @weekday _ _ _ _ rest hyear hweek hday hrest hdate =>
        rw [fromisoformat_padded hyear htext, ← hdate, afterYear_plain (by simp)]
        · exact parseIsoWeek_weekday false hweek hday rest
        · simp only [bytes_cons, bytes_append, bytes_padded, hw]
          omega
      | @separated _ year week weekday hyear hweek hday hdate =>
        rw [fromisoformat_padded hyear htext, ← hdate, afterYear_dash]
        · have hread := @parseIsoWeek_weekday year week weekday true hweek hday []
          rw [List.append_nil] at hread
          exact hread
        · simp [bytes_cons, bytes_append, hw, hdash]

theorem fromisoformat_isoformat (d : Date) : Date.fromisoformat d.isoformat = some d :=
  fromisoformat_eq_some_iff.mpr (.inl rfl)

/-- A wide date is not canonical : where a canonical date has a dash and a digit, it has a digit
or a `W`. -/
theorem WideDate.ne_isoChars {cs : List Char} {d : Date} (h : WideDate cs d) (year month day : Nat) :
    cs ≠ isoChars year month day := by
  rw [isoChars]
  intro heq
  have hcut : ∀ {year year' : Nat} {a b : List Char}, padded 4 year ++ a = padded 4 year' ++ b →
      a = b := fun h => (List.append_inj h (by simp)).2
  cases h with
  | basic hrest =>
    have hhead := congrArg List.head? (hcut heq)
    rw [head?_padded_append, List.head?_cons] at hhead
    exact (digitChar_spec _).2.2.2.1 (Option.some.inj hhead)
  | week hyear hweek hsep hdate =>
    rcases hsep with rfl | rfl
    · have hhead := congrArg List.head? (hcut heq)
      cases hhead
    · have htail : 'W' :: _ = _ := (List.cons.inj (hcut heq)).2
      have hhead := congrArg List.head? htail
      rw [head?_padded_append, List.head?_cons] at hhead
      exact (digitChar_spec _).2.2.2.2 (Option.some.inj hhead).symm
  | weekday =>
    have hhead := congrArg List.head? (hcut heq)
    cases hhead
  | separated =>
    have htail := (List.cons.inj (hcut heq)).2
    have hhead := congrArg List.head? htail
    rw [head?_padded_append, List.head?_cons] at hhead
    exact (digitChar_spec _).2.2.2.2 (Option.some.inj hhead).symm

/-! ## The zero-padded forms -/

/-- `cs` is one of the six zero-padded forms of the date `d` : the year first or the day first. -/
def NamesDate (cs : List Char) (d : Date) : Prop :=
  ∃ sep ∈ ['-', '/', '.'],
    cs = padded 4 d.year ++ sep :: (padded 2 d.month ++ sep :: padded 2 d.day) ∨
      cs = padded 2 d.day ++ sep :: (padded 2 d.month ++ sep :: padded 4 d.year)

/-- Digits are a padded number. -/
theorem exists_padded (ds : List Char) (h : ∀ c ∈ ds, (digitValue c).isSome) :
    ∃ n < 10 ^ ds.length, ds = padded ds.length n := by
  induction ds using List.reverseRecOn with
  | nil => exact ⟨0, by decide, rfl⟩
  | append_singleton ds c ih =>
    obtain ⟨n, hn, hds⟩ := ih fun x hx => h x (by simp [hx])
    obtain ⟨v, hv⟩ := Option.isSome_iff_exists.mp (h c (by simp))
    obtain ⟨hv10, rfl⟩ := eq_digitChar hv
    refine ⟨n * 10 + v, ?_, ?_⟩
    · rw [List.length_append, List.length_singleton, Nat.pow_succ]
      omega
    · have hdiv : (n * 10 + v) / 10 = n := by omega
      have hlast : digitChar (n * 10 + v) = digitChar v := by
        rw [digitChar, digitChar, show (n * 10 + v) % 10 = v % 10 by omega]
      rw [List.length_append, List.length_singleton, padded_succ, hdiv, hlast, ← hds]

theorem isoTokenGroups_year_first {sep : Char} (hsep : sep ∈ ['-', '/', '.']) (year month day : Nat) :
    isoTokenGroups (padded 4 year ++ sep :: (padded 2 month ++ sep :: padded 2 day)) =
      some (padded 4 year, padded 2 month, padded 2 day) := by
  have hdigit : ∀ n, digitValue (digitChar n) = some (n % 10) := fun n => (digitChar_spec n).1
  simp only [padded_succ, padded_zero, List.nil_append, List.cons_append, isoTokenGroups,
    List.all_cons, List.all_nil, hdigit, Option.isSome_some, Bool.and_true, hsep, and_self, if_true]

theorem isoTokenGroups_day_first {sep : Char} (hsep : sep ∈ ['-', '/', '.']) (year month day : Nat) :
    isoTokenGroups (padded 2 day ++ sep :: (padded 2 month ++ sep :: padded 4 year)) =
      some (padded 4 year, padded 2 month, padded 2 day) := by
  have hdigit : ∀ n, digitValue (digitChar n) = some (n % 10) := fun n => (digitChar_spec n).1
  have hnot : (digitValue sep).isSome = false := by
    simp only [List.mem_cons, List.not_mem_nil, or_false] at hsep
    rcases hsep with rfl | rfl | rfl <;> decide
  simp only [padded_succ, padded_zero, List.nil_append, List.cons_append, isoTokenGroups,
    List.all_cons, List.all_nil, hdigit, hnot, Option.isSome_some, Bool.and_true,
    Bool.and_false, Bool.false_eq_true, false_and, if_false, hsep, and_self, if_true]

theorem of_isoTokenGroups {cs year month day : List Char}
    (h : isoTokenGroups cs = some (year, month, day)) :
    (year.length = 4 ∧ month.length = 2 ∧ day.length = 2) ∧
      (∀ c ∈ year ++ month ++ day, (digitValue c).isSome) ∧
      ∃ sep ∈ ['-', '/', '.'], cs = year ++ sep :: (month ++ sep :: day) ∨
        cs = day ++ sep :: (month ++ sep :: year) := by
  unfold isoTokenGroups at h
  split at h
  · split at h
    · rename_i hc
      obtain ⟨hdigits, rfl, hsep⟩ := hc
      cases h
      refine ⟨⟨rfl, rfl, rfl⟩, ?_, _, hsep, .inl rfl⟩
      simpa using hdigits
    · split at h
      · rename_i hc
        obtain ⟨hdigits, rfl, hsep⟩ := hc
        cases h
        refine ⟨⟨rfl, rfl, rfl⟩, ?_, _, hsep, .inr rfl⟩
        simp only [List.all_cons, Bool.and_eq_true] at hdigits
        simp [hdigits]
      · cases h
  · cases h

theorem isoChars_eq (year month day : Nat) :
    String.ofList (padded 4 year ++ '-' :: padded 2 month ++ '-' :: padded 2 day) =
      String.ofList (isoChars year month day) := by
  simp [isoChars]

theorem isoChars_inj {year month day year' month' day' : Nat}
    (h : isoChars year month day = isoChars year' month' day') :
    padded 4 year = padded 4 year' ∧ padded 2 month = padded 2 month' ∧
      padded 2 day = padded 2 day' := by
  obtain ⟨hyear, h⟩ := List.append_inj h (by simp)
  obtain ⟨hmonth, h⟩ := List.append_inj (List.cons.inj h).2 (by simp)
  exact ⟨hyear, hmonth, (List.cons.inj h).2⟩

/-- The six zero-padded forms of a valid date are rewritten to the canonical one, and nothing else
is. -/
theorem normalizeIsoDateToken_eq_some_iff {token canonical : String}
    (htoken : Trimmed isSpace token.toList) :
    normalizeIsoDateToken token = some canonical ↔
      ∃ d : Date, NamesDate token.toList d ∧ canonical = d.isoformat := by
  rw [normalizeIsoDateToken, stripChars_eq, trim_of_trimmed htoken]
  constructor
  · intro h
    split at h
    · cases h
    · rename_i groups year month day hgroups
      obtain ⟨⟨hy, hm, hd⟩, hdigits, sep, hsep, hform⟩ := of_isoTokenGroups hgroups
      obtain ⟨y, -, rfl⟩ : ∃ n < 10 ^ 4, year = padded 4 n :=
        hy ▸ exists_padded year fun c hc => hdigits c (by simp [hc])
      obtain ⟨m, -, rfl⟩ : ∃ n < 10 ^ 2, month = padded 2 n :=
        hm ▸ exists_padded month fun c hc => hdigits c (by simp [hc])
      obtain ⟨k, -, rfl⟩ : ∃ n < 10 ^ 2, day = padded 2 n :=
        hd ▸ exists_padded day fun c hc => hdigits c (by simp [hc])
      dsimp only at h
      split at h
      · rename_i hvalid
        cases h
        obtain ⟨d, hdate⟩ := Option.isSome_iff_exists.mp hvalid
        rw [isoChars_eq] at hdate ⊢
        rcases fromisoformat_eq_some_iff.mp hdate with hiso | hwide
        · have hchars : isoChars y m k = isoChars d.year d.month d.day := by
            rw [← toList_isoformat, ← hiso, String.toList_ofList]
          obtain ⟨hy, hm, hk⟩ := isoChars_inj hchars
          rw [hy, hm, hk] at hform
          exact ⟨d, ⟨sep, hsep, hform⟩, hiso⟩
        · rw [String.toList_ofList] at hwide
          exact absurd rfl (hwide.ne_isoChars y m k)
      · cases h
  · rintro ⟨d, ⟨sep, hsep, hform⟩, rfl⟩
    have hgroups : isoTokenGroups token.toList =
        some (padded 4 d.year, padded 2 d.month, padded 2 d.day) := by
      rcases hform with h | h
      · rw [h, isoTokenGroups_year_first hsep]
      · rw [h, isoTokenGroups_day_first hsep]
    have hread : (Date.fromisoformat d.isoformat).isSome := by rw [fromisoformat_isoformat]; rfl
    rw [hgroups]
    exact if_pos hread

end DiaryMemory
