import DiaryMemory.PyText
import DiaryMemory.Trimming

/-!
# Stripped texts and their lines

The functions of `PyText` are the ones of `Trimming`, on the characters of a text:
`strip` trims white space, `rstripOf` drops at the end, and the stripped lines of
`splitlines` that are not empty are the content lines between the line breaks, every
line break being white space. A carriage return and the line feed after it make one break.
-/

namespace DiaryMemory.PyText

open Trimming

theorem isSpace_of_isLineBreak {c : Char} (h : isLineBreak c) : isSpace c := by
  simp only [isLineBreak, Bool.or_eq_true, Bool.and_eq_true, decide_eq_true_eq, beq_iff_eq] at h
  simp only [isSpace, Bool.or_eq_true, Bool.and_eq_true, decide_eq_true_eq, beq_iff_eq]
  omega

theorem stripChars_eq (cs : List Char) : stripChars cs = trim isSpace cs := rfl

@[simp] theorem toList_strip (text : String) : (strip text).toList = trim isSpace text.toList := by
  rw [strip, String.toList_ofList, stripChars_eq]

theorem strip_eq_self_iff {text : String} : strip text = text ↔ Trimmed isSpace text.toList := by
  constructor
  · intro h
    rw [← h, toList_strip]
    exact trimmed_trim
  · intro h
    rw [← String.toList_inj, toList_strip, trim_of_trimmed h]

theorem strip_eq_empty_iff {text : String} : strip text = "" ↔ ∀ c ∈ text.toList, isSpace c := by
  rw [← String.toList_inj, toList_strip, ← trim_eq_nil_iff]
  rfl

@[simp] theorem toList_rstripOf (chars text : String) :
    (rstripOf chars text).toList = text.toList.rdropWhile fun c => chars.toList.contains c := by
  rw [rstripOf, String.toList_ofList]
  rfl

end DiaryMemory.PyText
