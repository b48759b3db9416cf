import Mathlib.Order.Lattice
import Mathlib.Order.Nat
import Mathlib.Tactic.Common

/-!
# Dates and instants

`Date` is a day of the proleptic Gregorian calendar between the years 1 and 9999,
and `DateTime` an instant of such a day in UTC, to the microsecond. Both carry the
bounds on their fields, and are ordered by a number computed from the fields
(`Date.stamp`, `DateTime.stamp`), which the bounds make injective.

`Date.ofIsoWeek?` reads an ISO year, week and weekday.
-/

namespace DiaryMemory

def isLeap (year : Nat) : Bool := year % 4 == 0 && (year % 100 != 0 || year % 400 == 0)

def daysInMonth (year month : Nat) : Nat :=
  if month = 2 then (if isLeap year then 29 else 28)
  else if month = 4 ∨ month = 6 ∨ month = 9 ∨ month = 11 then 30
  else 31

theorem daysInMonth_le (year month : Nat) : daysInMonth year month ≤ 31 := by
  unfold daysInMonth
  split
  · split <;> omega
  · split <;> omega

/-- The fields name a day of the calendar. -/
def ValidYMD (year month day : Nat) : Prop :=
  (1 ≤ year ∧ year ≤ 9999) ∧ (1 ≤ month ∧ month ≤ 12) ∧
    (1 ≤ day ∧ day ≤ daysInMonth year month)

instance (year month day : Nat) : Decidable (ValidYMD year month day) := by
  unfold ValidYMD
  infer_instance

/-- A calendar day. -/
structure Date where
  year : Nat
  month : Nat
  day : Nat
  valid : ValidYMD year month day
  deriving DecidableEq

namespace Date

/-- The number dates are ordered by. -/
def stamp (d : Date) : Nat := (d.year * 13 + d.month) * 32 + d.day

theorem stamp_injective : Function.Injective stamp := by
  rintro ⟨y, m, d, _, hm, hd⟩ ⟨y', m', d', _, hm', hd'⟩ h
  have := daysInMonth_le y m
  have := daysInMonth_le y' m'
  simp only [stamp] at h
  obtain ⟨rfl, rfl, rfl⟩ : y = y' ∧ m = m' ∧ d = d' := by omega
  rfl

instance : LinearOrder Date := LinearOrder.lift' stamp stamp_injective

/-- The day with the given fields, if there is one. -/
def ofYMD? (year month day : Nat) : Option Date :=
  if h : ValidYMD year month day then some ⟨year, month, day, h⟩ else none

/-- The days before the first of January of `year`, counted from 0001-01-01. -/
def daysBeforeYear (year : Nat) : Nat :=
  (year - 1) * 365 + (year - 1) / 4 - (year - 1) / 100 + (year - 1) / 400

/-- The weekday of the first of January, Monday being 0. -/
def firstWeekday (year : Nat) : Nat := daysBeforeYear year % 7

/-- The month and day of the `n`-th day after the first of `month`. -/
def walkMonths (year : Nat) : Nat → Nat → Nat → Nat × Nat
  | 0, month, n => (month, n + 1)
  | fuel + 1, month, n =>
    if n < daysInMonth year month then (month, n + 1)
    else walkMonths year fuel (month + 1) (n - daysInMonth year month)

/-- The day `weekday` (1 to 7) of ISO week `week` of `year`. Week 53 exists in the
years that start on a Thursday and in the leap years that start on a Wednesday. -/
def ofIsoWeek? (year week weekday : Nat) : Option Date :=
  let first := firstWeekday year
  let long := first == 3 || (first == 2 && isLeap year)
  if week = 0 ∨ week > 53 ∨ (week = 53 ∧ !long) then none
  else if weekday = 0 ∨ weekday > 7 then none
  else
    -- the Monday of week 1 lies `first` days before the first of January, or
    -- `7 - first` days after it when the year starts after a Thursday
    let offset := (week - 1) * 7 + (weekday - 1) + (if first > 3 then 7 else 0)
    if year = 0 then none
    else if offset < first then ofYMD? (year - 1) 12 (32 + offset - first)
    else
      let n := offset - first
      let yearLength := if isLeap year then 366 else 365
      if yearLength ≤ n then ofYMD? (year + 1) 1 (n - yearLength + 1)
      else
        let md := walkMonths year 11 1 n
        ofYMD? year md.1 md.2

end Date

/-- An instant in UTC. -/
structure DateTime where
  date : Date
  hour : Nat
  minute : Nat
  second : Nat
  microsecond : Nat
  valid : hour < 24 ∧ minute < 60 ∧ second < 60 ∧ microsecond < 1000000
  deriving DecidableEq

namespace DateTime

/-- The number instants are ordered by. -/
def stamp (t : DateTime) : Nat :=
  (((t.date.stamp * 24 + t.hour) * 60 + t.minute) * 60 + t.second) * 1000000 + t.microsecond

theorem stamp_injective : Function.Injective stamp := by
  rintro ⟨d, h, m, s, u, hh, hm, hs, hu⟩ ⟨d', h', m', s', u', hh', hm', hs', hu'⟩ he
  simp only [stamp] at he
  obtain ⟨hd, rfl, rfl, rfl, rfl⟩ :
      d.stamp = d'.stamp ∧ h = h' ∧ m = m' ∧ s = s' ∧ u = u' := by omega
  obtain rfl := Date.stamp_injective hd
  rfl

instance : LinearOrder DateTime := LinearOrder.lift' stamp stamp_injective

end DateTime

/-- The day of the runs on fixed inputs. -/
def Date.mayNinth : Date := ⟨2026, 5, 9, by decide⟩

/-- Its first instant. -/
def DateTime.mayNinth : DateTime := ⟨.mayNinth, 0, 0, 0, 0, by decide⟩

/-! ## Text forms -/

/-- Decimal digits of `n`, the last `width` of them. -/
def padded : Nat → Nat → List Char
  | 0, _ => []
  | width + 1, n => padded width (n / 10) ++ [Char.ofNat (48 + n % 10)]

/-- `YYYY-MM-DD`. -/
def Date.isoformat (d : Date) : String :=
  String.ofList (padded 4 d.year ++ '-' :: padded 2 d.month ++ '-' :: padded 2 d.day)

/-- `YYYY-MM-DDTHH:MM:SS[.ffffff]+00:00`. -/
def DateTime.isoformat (t : DateTime) : String :=
  t.date.isoformat ++ "T" ++ String.ofList (padded 2 t.hour) ++ ":" ++
    String.ofList (padded 2 t.minute) ++ ":" ++ String.ofList (padded 2 t.second) ++
    (if t.microsecond = 0 then "" else "." ++ String.ofList (padded 6 t.microsecond)) ++ "+00:00"

/-- The value of an ASCII digit. -/
def digitValue (c : Char) : Option Nat :=
  if '0' ≤ c ∧ c ≤ '9' then some (c.toNat - 48) else none

/-- Read `n` ASCII digits. -/
def parseDigits : Nat → Nat → List Char → Option (Nat × List Char)
  | 0, acc, cs => some (acc, cs)
  | _ + 1, _, [] => none
  | n + 1, acc, c :: cs =>
    match digitValue c with
    | none => none
    | some d => parseDigits n (acc * 10 + d) cs

/-- Read the separator, when the text uses one. -/
def parseSeparator (usesSeparator : Bool) (cs : List Char) : Option (List Char) :=
  match usesSeparator, cs with
  | false, cs => some cs
  | true, '-' :: cs => some cs
  | true, _ => none

/-- The week form `Www[-]D`, read after the year. -/
def parseIsoWeek (year : Nat) (usesSeparator : Bool) (cs : List Char) : Option Date := do
  let (week, cs) ← parseDigits 2 0 cs
  if cs.isEmpty then Date.ofIsoWeek? year week 1
  else
    let cs ← parseSeparator usesSeparator cs
    let (weekday, _) ← parseDigits 1 0 cs
    Date.ofIsoWeek? year week weekday

/-- Python 3.11's `date.fromisoformat` : the text has 7, 8 or 10 bytes in UTF-8, and
what follows a complete date is not looked at. -/
def Date.fromisoformat (text : String) : Option Date :=
  if text.utf8ByteSize = 7 ∨ text.utf8ByteSize = 8 ∨ text.utf8ByteSize = 10 then do
    let (year, cs) ← parseDigits 4 0 text.toList
    let usesSeparator := cs.head? = some '-'
    let cs := if usesSeparator then cs.tail else cs
    match cs with
    | 'W' :: cs => parseIsoWeek year usesSeparator cs
    | cs =>
      let (month, cs) ← parseDigits 2 0 cs
      let cs ← parseSeparator usesSeparator cs
      let (day, _) ← parseDigits 2 0 cs
      Date.ofYMD? year month day
  else none

example : Date.fromisoformat "2024-02-30" = none := by decide
example : (Date.fromisoformat "2024-02-29").map Date.isoformat = some "2024-02-29" := by decide
example : (Date.fromisoformat "2020-W53").map Date.isoformat = some "2020-12-28" := by decide

end DiaryMemory
