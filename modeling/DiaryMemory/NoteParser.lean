import DiaryMemory.Calendar
import DiaryMemory.PyText

/-!
# The note parser

`parseNote` reads a payload as a date line followed by a body : the first non-empty
line must be a date (`Date.fromisoformat`), and the remaining non-empty lines, joined
by newlines, are the body. A payload without a date line is not a note.
-/

namespace DiaryMemory

open PyText

/-- A date and the note body that follows it. -/
structure ParsedNote where
  noteDate : Date
  body : String
  firstLine : String
  deriving DecidableEq

/-- The stripped lines of a text, without the empty ones. -/
def splitNonEmptyLines (text : String) : List String :=
  ((splitlines text).map strip).filter (· ≠ "")

/-- Parse a payload into its date and body. -/
def parseNote (payload : String) : Option ParsedNote :=
  match splitNonEmptyLines payload with
  | [] => none
  | firstLine :: rest =>
    (Date.fromisoformat firstLine).map fun noteDate => ⟨noteDate, joinLines rest, firstLine⟩

/-- The stripped first line of a text. -/
def firstLine (text : String) : String :=
  if text = "" then "" else strip ((splitlines text).headD "")

/-! ## Near-ISO dates -/

/-- The digit groups `year`, `month`, `day` of a whitelisted token, both separators the
same. -/
def isoTokenGroups : List Char → Option (List Char × List Char × List Char)
  | [a, b, c, d, e, f, g, h, i, j] =>
    if [a, b, c, d, f, g, i, j].all (fun x => (digitValue x).isSome) ∧ e = h ∧ e ∈ ['-', '/', '.'] then
      some ([a, b, c, d], [f, g], [i, j])
    else if [a, b, d, e, g, h, i, j].all (fun x => (digitValue x).isSome) ∧ c = f ∧
        c ∈ ['-', '/', '.'] then
      some ([g, h, i, j], [d, e], [a, b])
    else none
  | _ => none

/-- The canonical form of a whitelisted near-ISO date, year or day first. -/
def normalizeIsoDateToken (token : String) : Option String :=
  match isoTokenGroups (stripChars token.toList) with
  | none => none
  | some (year, month, day) =>
    let candidate := String.ofList (year ++ '-' :: month ++ '-' :: day)
    if (Date.fromisoformat candidate).isSome then some candidate else none

/-- Rewrite the first non-blank line of a `/note` payload : a near-ISO date becomes
canonical, and before anything else the date `today` is put on a line of its own. -/
def normalizeFirstLine (payload today : List Char) : List (List Char) → List Char → List Char
  | [], _ => payload
  | raw :: rest, before =>
    let stripped := stripChars raw
    if stripped = [] then normalizeFirstLine payload today rest (before ++ raw)
    else
      match normalizeIsoDateToken (String.ofList stripped) with
      | none => today ++ '\n' :: payload
      | some canonical =>
        let leading := raw.takeWhile isSpace
        let trailing := raw.drop (leading.length + stripped.length)
        before ++ leading ++ canonical.toList ++ trailing ++ rest.flatten

/-- The payload `_normalize_note_first_line` hands to the parser. -/
def normalizeNotePayload (payload : String) (today : Date) : String :=
  String.ofList (normalizeFirstLine payload.toList today.isoformat.toList
    (linesKeepEnds [] payload.toList) [])

example : normalizeIsoDateToken "05/09/2026" = some "2026-09-05" := by decide

end DiaryMemory
