import DiaryMemory.PyText
import DiaryMemory.Tables

/-!
# Author names

The adapter keeps, next to the rows of the store, what the host said of an author when a
message state arrived : a snapshot of the user name and the first name, each of which may be
withheld (`AuthorDisplayInput`). A snapshot is kept under the key of its message state and
never overwritten (`saveAuthorDisplayInput`). The name shown is the user name, else the first
name, else the end of the author's identifier (`resolveAuthorDisplayName`).
-/

namespace DiaryMemory

/-- One row of `author_display_inputs`. -/
structure AuthorDisplayInput where
  key : MessageKey
  username : Option String
  firstName : Option String
  deriving DecidableEq

/-- The snapshots, keyed by message states. -/
abbrev AuthorDisplayInputs := Table AuthorDisplayInput.key

/-- `save_author_display_input` : the first snapshot of a message state stays. -/
def saveAuthorDisplayInput (row : AuthorDisplayInput) (displays : AuthorDisplayInputs) :
    AuthorDisplayInputs :=
  if (displays.find? row.key).isSome then displays else displays.put row

/-- `_present`. -/
def present (value : Option String) : Option String :=
  match value with
  | none => none
  | some value => if PyText.strip value = "" then none else some (PyText.strip value)

/-- `text[-n:]`. -/
def lastChars (n : Nat) (text : String) : String :=
  String.ofList (text.toList.drop (text.toList.length - n))

def resolveAuthorDisplayName (username firstName : Option String) (authorUserId : String) :
    String :=
  match present username with
  | some chosen => "@" ++ chosen
  | none =>
    match present firstName with
    | some chosen => chosen
    | none => "user-" ++ lastChars 8 authorUserId

example : resolveAuthorDisplayName (some " ") (some " Ann ") "123456789" = "Ann" := by decide
example : resolveAuthorDisplayName none none "123456789" = "user-23456789" := by decide

/-! ## Snapshots -/

section Snapshots

variable {displays : AuthorDisplayInputs} {row row' : AuthorDisplayInput}

theorem mem_saveAuthorDisplayInput (h : row' ∈ saveAuthorDisplayInput row displays) :
    row' = row ∨ row' ∈ displays := by
  unfold saveAuthorDisplayInput at h
  split at h
  · exact .inr h
  · exact (Table.mem_put.mp h).imp_right And.left

/-- A snapshot stays as it is. -/
theorem find?_saveAuthorDisplayInput {key : MessageKey} (h : displays.find? key = some row') :
    (saveAuthorDisplayInput row displays).find? key = some row' := by
  unfold saveAuthorDisplayInput
  split
  · exact h
  · next hnone =>
    rw [Table.find?_put, if_neg, h]
    rintro rfl
    rw [h] at hnone
    exact hnone rfl

end Snapshots

end DiaryMemory
