import Mathlib.Tactic.Common

/-!
# Text, as Python's `str` treats it

`strip`, `rstrip`, `splitlines` and `"\n".join` on strings, computed on their lists
of characters. White space is the set `str.isspace` accepts, and a line ends at each
of the boundaries `str.splitlines` knows, a carriage return followed by a line feed
being one of them.
-/

namespace DiaryMemory.PyText

/-- The characters `str.strip` removes. -/
def isSpace (c : Char) : Bool :=
  let n := c.toNat
  (9 ≤ n && n ≤ 13) || (28 ≤ n && n ≤ 32) || n == 0x85 || n == 0xA0 || n == 0x1680 ||
    (0x2000 ≤ n && n ≤ 0x200A) || n == 0x2028 || n == 0x2029 || n == 0x202F || n == 0x205F ||
    n == 0x3000

/-- The characters `str.splitlines` ends a line at. -/
def isLineBreak (c : Char) : Bool :=
  let n := c.toNat
  (10 ≤ n && n ≤ 13) || (28 ≤ n && n ≤ 30) || n == 0x85 || n == 0x2028 || n == 0x2029

/-- Drop the trailing characters that `p` selects. -/
def dropRight (p : Char → Bool) (cs : List Char) : List Char :=
  (cs.reverse.dropWhile p).reverse

/-- Drop the leading and trailing white space. -/
def stripChars (cs : List Char) : List Char := dropRight isSpace (cs.dropWhile isSpace)

/-- `text.strip()`. -/
def strip (text : String) : String := String.ofList (stripChars text.toList)

/-- `text.rstrip(chars)`. -/
def rstripOf (chars : String) (text : String) : String :=
  String.ofList (dropRight (fun c => chars.toList.contains c) text.toList)

/-- `text.lstrip()`. -/
def lstrip (text : String) : String := String.ofList (text.toList.dropWhile isSpace)

/-- What stands before and after the first `sep` in `text.partition(sep)`; the second part is
empty when there is none. -/
def partition (sep : Char) (text : String) : String × String :=
  (String.ofList (text.toList.takeWhile (· != sep)),
    String.ofList ((text.toList.dropWhile (· != sep)).drop 1))

/-- The lines of a text, given the characters of the line read so far in reverse. -/
def linesFrom : List Char → List Char → List (List Char)
  | [], [] => []
  | line, [] => [line.reverse]
  | line, '\r' :: '\n' :: cs => line.reverse :: linesFrom [] cs
  | line, c :: cs =>
    if isLineBreak c then line.reverse :: linesFrom [] cs else linesFrom (c :: line) cs

/-- `text.splitlines()`. -/
def splitlines (text : String) : List String :=
  (linesFrom [] text.toList).map String.ofList

/-- The lines of a text with the characters that end them, given the characters of the
line read so far in reverse. -/
def linesKeepEnds : List Char → List Char → List (List Char)
  | [], [] => []
  | line, [] => [line.reverse]
  | line, '\r' :: '\n' :: cs => ('\n' :: '\r' :: line).reverse :: linesKeepEnds [] cs
  | line, c :: cs =>
    if isLineBreak c then (c :: line).reverse :: linesKeepEnds [] cs
    else linesKeepEnds (c :: line) cs

/-- `"\n".join(lines)`. -/
def joinLines (lines : List String) : String := "\n".intercalate lines

example : splitlines "a\r\nb\n\nc" = ["a", "b", "", "c"] := by decide
example : strip " \t a b\n" = "a b" := by decide

end DiaryMemory.PyText
