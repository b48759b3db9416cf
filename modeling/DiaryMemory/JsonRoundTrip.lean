import DiaryMemory.JsonText
import Mathlib.Data.List.Infix
import Mathlib.Tactic.Linarith

/-!
# What was written is read

The tokens of a value are written down once (`tokens`). The parser accepts them and nothing else
(`parse_iff`), and the lexer finds them in the text of the value in every layout (`lexFrom_write`),
string by string and number by number. Both are inductions over values (`Value.induct`).
-/

namespace DiaryMemory.JsonText

/-- The induction over values : the items of a list and the values of an object come first. -/
@[elab_as_elim]
theorem Value.induct {P : Value → Prop} (null : P .null) (bool : ∀ b, P (.bool b))
    (int : ∀ n, P (.int n)) (float : ∀ x, P (.float x)) (special : ∀ s, P (.special s))
    (str : ∀ s, P (.str s)) (list : ∀ vs, (∀ v ∈ vs, P v) → P (.list vs))
    (dict : ∀ fields, (∀ f ∈ fields, P f.2) → P (.dict fields)) : ∀ v, P v
  | .null => null
  | .bool b => bool b
  | .int n => int n
  | .float x => float x
  | .special s => special s
  | .str s => str s
  | .list vs => list vs fun v _ => induct null bool int float special str list dict v
  | .dict fields => dict fields fun f _ => induct null bool int float special str list dict f.2
termination_by v => sizeOf v
decreasing_by
  · have := List.sizeOf_lt_of_mem ‹v ∈ vs›
    simp only [Value.list.sizeOf_spec]
    omega
  · have hfield := List.sizeOf_lt_of_mem ‹f ∈ fields›
    have hvalue : sizeOf f.2 < sizeOf f := by
      cases f
      simp only [Prod.mk.sizeOf_spec]
      omega
    simp only [Value.dict.sizeOf_spec]
    omega

/-! ## The tokens of a value -/

mutual

/-- The tokens of a value. -/
def tokens : Value → List Token
  | .null => [.null]
  | .bool b => [.bool b]
  | .int n => [.int n]
  | .float x => [.float x]
  | .special s => [.special s]
  | .str s => [.str s]
  | .list [] => [.openList, .closeList]
  | .list (v :: vs) => .openList :: (tokens v ++ itemTokens vs)
  | .dict [] => [.openDict, .closeDict]
  | .dict ((key, v) :: fields) =>
    .openDict :: .str key :: .colon :: (tokens v ++ fieldTokens fields)

/-- The tokens of the items behind the first one. -/
def itemTokens : List Value → List Token
  | [] => [.closeList]
  | v :: vs => .comma :: (tokens v ++ itemTokens vs)

/-- The tokens of the fields behind the first one. -/
def fieldTokens : List (String × Value) → List Token
  | [] => [.closeDict]
  | (key, v) :: fields => .comma :: .str key :: .colon :: (tokens v ++ fieldTokens fields)

end

/-- No value starts with a closing bracket. -/
theorem tokens_eq_cons (v : Value) : ∃ t ts, tokens v = t :: ts ∧ t ≠ .closeList := by
  cases v with
  | list vs => cases vs <;> simp [tokens]
  | dict fields =>
    rcases fields with _ | ⟨⟨key, v⟩, fields⟩ <;> simp [tokens]
  | _ => simp [tokens]

/-- The parser reads a value, whatever follows. -/
def Parsed (v : Value) : Prop :=
  ∀ fuel rest, (tokens v).length ≤ fuel → parseValue fuel (tokens v ++ rest) = some (v, rest)

theorem parseItems_tokens {vs : List Value} : ∀ {v : Value}, Parsed v → (∀ w ∈ vs, Parsed w) →
    ∀ fuel rest, (tokens v ++ itemTokens vs).length ≤ fuel →
      parseItems fuel (tokens v ++ itemTokens vs ++ rest) = some (v :: vs, rest) := by
  induction vs with
  | nil =>
    intro v hv _ fuel rest hfuel
    simp only [itemTokens, List.length_append, List.length_singleton] at hfuel
    obtain ⟨fuel, rfl⟩ := Nat.exists_eq_add_one_of_ne_zero (show fuel ≠ 0 by omega)
    rw [parseItems, List.append_assoc, hv fuel _ (by omega)]
    rfl
  | cons w vs ih =>
    intro v hv hvs fuel rest hfuel
    obtain ⟨hw, hvs⟩ := List.forall_mem_cons.mp hvs
    simp only [itemTokens, List.length_append, List.length_cons] at hfuel
    obtain ⟨fuel, rfl⟩ := Nat.exists_eq_add_one_of_ne_zero (show fuel ≠ 0 by omega)
    have hrest := ih hw hvs fuel rest (by rw [List.length_append]; omega)
    rw [parseItems, List.append_assoc, hv fuel _ (by omega)]
    simp only [itemTokens, List.cons_append, Option.bind_eq_bind, Option.bind_some, hrest,
      Option.map_some]

theorem parseFields_tokens {fields : List (String × Value)} :
    ∀ {key : String} {v : Value}, Parsed v → (∀ f ∈ fields, Parsed f.2) →
    ∀ fuel rest, (tokens v ++ fieldTokens fields).length + 2 ≤ fuel →
      parseFields fuel (.str key :: .colon :: (tokens v ++ fieldTokens fields ++ rest)) =
        some ((key, v) :: fields, rest) := by
  induction fields with
  | nil =>
    intro key v hv _ fuel rest hfuel
    simp only [fieldTokens, List.length_append, List.length_singleton] at hfuel
    obtain ⟨fuel, rfl⟩ := Nat.exists_eq_add_one_of_ne_zero (show fuel ≠ 0 by omega)
    simp only [parseFields, List.append_assoc, hv fuel _ (by omega : (tokens v).length ≤ fuel)]
    rfl
  | cons f fields ih =>
    intro key v hv hfields fuel rest hfuel
    obtain ⟨hf, hfields⟩ := List.forall_mem_cons.mp hfields
    simp only [fieldTokens, List.length_append, List.length_cons] at hfuel
    obtain ⟨fuel, rfl⟩ := Nat.exists_eq_add_one_of_ne_zero (show fuel ≠ 0 by omega)
    have hrest := @ih f.1 f.2 hf hfields fuel rest (by rw [List.length_append]; omega)
    simp only [parseFields, List.append_assoc, hv fuel _ (by omega : (tokens v).length ≤ fuel)]
    rw [List.append_assoc] at hrest
    simp only [fieldTokens, List.cons_append, List.append_assoc, Option.bind_eq_bind,
      Option.bind_some, hrest, Option.map_some]

/-- The parser reads every value. -/
theorem parseValue_tokens (v : Value) : Parsed v := by
  induction v using Value.induct with
  | list vs ih =>
    intro fuel rest hfuel
    cases vs with
    | nil =>
      obtain ⟨fuel, rfl⟩ := Nat.exists_eq_add_one_of_ne_zero (show fuel ≠ 0 by
        simp only [tokens, List.length_cons] at hfuel; omega)
      rfl
    | cons v vs =>
      obtain ⟨hv, hvs⟩ := List.forall_mem_cons.mp ih
      simp only [tokens, List.length_cons] at hfuel
      obtain ⟨fuel, rfl⟩ := Nat.exists_eq_add_one_of_ne_zero (show fuel ≠ 0 by omega)
      have hitems := parseItems_tokens hv hvs fuel rest (by omega)
      obtain ⟨t, ts, htokens, hne⟩ := tokens_eq_cons v
      rw [htokens] at hitems
      simp only [tokens, htokens, List.cons_append, parseValue]
      split
      · next heq => exact absurd (List.cons.inj heq).1 hne
      · simp only [List.cons_append] at hitems
        rw [hitems]
        rfl
  | dict fields ih =>
    intro fuel rest hfuel
    rcases fields with _ | ⟨⟨key, v⟩, fields⟩
    · obtain ⟨fuel, rfl⟩ := Nat.exists_eq_add_one_of_ne_zero (show fuel ≠ 0 by
        simp only [tokens, List.length_cons] at hfuel; omega)
      rfl
    · obtain ⟨hv, hfields⟩ := List.forall_mem_cons.mp ih
      simp only [tokens, List.length_cons] at hfuel
      obtain ⟨fuel, rfl⟩ := Nat.exists_eq_add_one_of_ne_zero (show fuel ≠ 0 by omega)
      have hread := @parseFields_tokens fields key v hv hfields fuel rest (by omega)
      simp only [tokens, List.cons_append, parseValue, hread, Option.map_some]
  | _ =>
    intro fuel rest hfuel
    obtain ⟨fuel, rfl⟩ := Nat.exists_eq_add_one_of_ne_zero (show fuel ≠ 0 by
      simp only [tokens, List.length_singleton] at hfuel; omega)
    rfl

/-- What each part of the parser has read. -/
structure Reads (fuel : Nat) : Prop where
  value : ∀ {ts v rest}, parseValue fuel ts = some (v, rest) → ts = tokens v ++ rest
  items : ∀ {ts vs rest}, parseItems fuel ts = some (vs, rest) →
    ∃ v vs', vs = v :: vs' ∧ ts = tokens v ++ itemTokens vs' ++ rest
  fields : ∀ {ts fields rest}, parseFields fuel ts = some (fields, rest) →
    ∃ key v fields', fields = (key, v) :: fields' ∧
      ts = .str key :: .colon :: (tokens v ++ fieldTokens fields' ++ rest)

theorem Reads.value_succ {fuel : Nat} (ih : Reads fuel) {ts : List Token} {v : Value}
    {rest : List Token} (h : parseValue (fuel + 1) ts = some (v, rest)) : ts = tokens v ++ rest := by
  cases ts with
  | nil => simp [parseValue] at h
  | cons t ts =>
    cases t with
    | openList =>
      simp only [parseValue] at h
      split at h
      · obtain ⟨rfl, rfl⟩ := Prod.mk.inj (Option.some.inj h)
        rfl
      · obtain ⟨⟨vs, rest'⟩, hitems, heq⟩ := Option.map_eq_some_iff.mp h
        obtain ⟨rfl, rfl⟩ := Prod.mk.inj heq
        obtain ⟨v, vs', rfl, rfl⟩ := ih.items hitems
        rfl
    | openDict =>
      simp only [parseValue] at h
      split at h
      · obtain ⟨rfl, rfl⟩ := Prod.mk.inj (Option.some.inj h)
        rfl
      · obtain ⟨⟨fields, rest'⟩, hfields, heq⟩ := Option.map_eq_some_iff.mp h
        obtain ⟨rfl, rfl⟩ := Prod.mk.inj heq
        obtain ⟨key, v, fields', rfl, rfl⟩ := ih.fields hfields
        rfl
    | closeList | closeDict | comma | colon => simp [parseValue] at h
    | _ =>
      simp only [parseValue] at h
      obtain ⟨rfl, rfl⟩ := Prod.mk.inj (Option.some.inj h)
      rfl

theorem Reads.items_succ {fuel : Nat} (ih : Reads fuel) {ts : List Token} {vs : List Value}
    {rest : List Token} (h : parseItems (fuel + 1) ts = some (vs, rest)) :
    ∃ v vs', vs = v :: vs' ∧ ts = tokens v ++ itemTokens vs' ++ rest := by
  rw [parseItems] at h
  obtain ⟨⟨v, ts'⟩, hv, hclose⟩ := Option.bind_eq_some_iff.mp h
  obtain rfl := ih.value hv
  clear h
  dsimp only at hclose
  split at hclose
  · obtain ⟨rfl, rfl⟩ := Prod.mk.inj (Option.some.inj hclose)
    exact ⟨v, [], rfl, by simp [itemTokens]⟩
  · obtain ⟨⟨vs', rest'⟩, hitems, heq⟩ := Option.map_eq_some_iff.mp hclose
    obtain ⟨rfl, rfl⟩ := Prod.mk.inj heq
    obtain ⟨w, vs', rfl, rfl⟩ := ih.items hitems
    exact ⟨v, w :: vs', rfl, by simp [itemTokens]⟩
  · cases hclose

theorem Reads.fields_succ {fuel : Nat} (ih : Reads fuel) {ts : List Token}
    {fields : List (String × Value)} {rest : List Token}
    (h : parseFields (fuel + 1) ts = some (fields, rest)) :
    ∃ key v fields', fields = (key, v) :: fields' ∧
      ts = .str key :: .colon :: (tokens v ++ fieldTokens fields' ++ rest) := by
  rw [parseFields.eq_def] at h
  dsimp only at h
  split at h
  · obtain ⟨⟨v, ts'⟩, hv, hclose⟩ := Option.bind_eq_some_iff.mp h
    obtain rfl := ih.value hv
    clear h
    dsimp only at hclose
    split at hclose
    · obtain ⟨rfl, rfl⟩ := Prod.mk.inj (Option.some.inj hclose)
      exact ⟨_, v, [], rfl, by simp [fieldTokens]⟩
    · obtain ⟨⟨fields', rest'⟩, hfields, heq⟩ := Option.map_eq_some_iff.mp hclose
      obtain ⟨rfl, rfl⟩ := Prod.mk.inj heq
      obtain ⟨key', w, fields', rfl, rfl⟩ := ih.fields hfields
      exact ⟨_, v, (key', w) :: fields', rfl, by simp [fieldTokens]⟩
    · cases hclose
  · cases h

theorem reads (fuel : Nat) : Reads fuel := by
  induction fuel with
  | zero =>
    refine ⟨fun h => ?_, fun h => ?_, fun h => ?_⟩
    · simp [parseValue] at h
    · simp [parseItems] at h
    · simp [parseFields] at h
  | succ fuel ih => exact ⟨ih.value_succ, ih.items_succ, ih.fields_succ⟩

/-- The tokens of a value are all that is accepted. -/
theorem parse_iff {ts : List Token} {v : Value} : parse ts = some v ↔ ts = tokens v := by
  constructor
  · intro h
    rw [parse] at h
    split at h
    · next w heq =>
      rw [← Option.some.inj h]
      exact ((reads _).value heq).trans (List.append_nil _)
    · cases h
  · rintro rfl
    have hread := parseValue_tokens v (tokens v).length [] (le_refl _)
    rw [List.append_nil] at hread
    rw [parse, hread]

/-! ## Words -/

theorem lexFrom_cons (mode : Mode) (c : Char) (cs : List Char) :
    lexFrom mode (c :: cs) = (step mode c).bind fun r => (lexFrom r.2 cs).map (r.1 ++ ·) := by
  cases mode <;> rfl

/-- A character that brings no token. -/
theorem lexFrom_step {mode mode' : Mode} {c : Char} (h : step mode c = some ([], mode'))
    (cs : List Char) : lexFrom mode (c :: cs) = lexFrom mode' cs := by
  rw [lexFrom_cons, h]
  simp

/-- A character that ends a token. -/
theorem lexFrom_token {mode : Mode} {c : Char} {t : Token} (h : step mode c = some ([t], .between))
    (cs : List Char) : lexFrom mode (c :: cs) = (lexFrom .between cs).map (t :: ·) := by
  rw [lexFrom_cons, h]
  rfl

theorem lexFrom_white {cs : List Char} (h : ∀ c ∈ cs, isWhite c = true) (rest : List Char) :
    lexFrom .between (cs ++ rest) = lexFrom .between rest := by
  induction cs with
  | nil => rfl
  | cons c cs ih =>
    obtain ⟨hc, hcs⟩ := List.forall_mem_cons.mp h
    have hstep : step .between c = some ([], .between) := by simp [step, enter, hc]
    exact (lexFrom_step hstep (cs ++ rest)).trans (ih hcs)

/-- No word goes on here. -/
def Stops (rest : List Char) : Prop := ∀ c, rest.head? = some c → isWordChar c = false

theorem stops_cons {c : Char} {cs : List Char} (h : isWordChar c = false) : Stops (c :: cs) := by
  intro d hd
  rwa [← Option.some.inj hd]

theorem enter_word {c : Char} (h : isWordChar c = true) : enter c = some ([], .word [c]) := by
  have hwhite : isWhite c = false := by
    by_contra hc
    simp only [isWhite, Bool.not_eq_false, Bool.or_eq_true, beq_iff_eq] at hc
    rcases hc with ((rfl | rfl) | rfl) | rfl <;> exact absurd h (by decide)
  have hquote : c ≠ '"' := by
    rintro rfl
    exact absurd h (by decide)
  simp [enter, hwhite, hquote, h]

theorem lexFrom_run {run : List Char} (h : ∀ c ∈ run, isWordChar c = true) (rest : List Char) :
    ∀ read, lexFrom (.word read) (run ++ rest) = lexFrom (.word (run.reverse ++ read)) rest := by
  induction run with
  | nil => exact fun read => rfl
  | cons c run ih =>
    intro read
    obtain ⟨hc, hrun⟩ := List.forall_mem_cons.mp h
    have hstep : step (.word read) c = some ([], .word (c :: read)) := by simp [step, hc]
    rw [List.cons_append, lexFrom_step hstep, ih hrun, List.reverse_cons, List.append_assoc]
    rfl

theorem lexFrom_stop {read rest : List Char} {t : Token} (ht : readWord read.reverse = some t)
    (hstop : Stops rest) : lexFrom (.word read) rest = (lexFrom .between rest).map (t :: ·) := by
  cases rest with
  | nil => simp [lexFrom, ht]
  | cons c cs =>
    have hc := hstop c rfl
    simp only [lexFrom_cons, step, hc, ht, Bool.false_eq_true, if_false, Option.bind_eq_bind,
      Option.bind_some]
    cases enter c with
    | none => rfl
    | some r =>
      simp only [Option.bind_some, Option.map_map]
      rfl

/-- A word, up to where it stops. -/
theorem lexFrom_word {w rest : List Char} {t : Token} (hw : ∀ c ∈ w, isWordChar c = true)
    (hne : w ≠ []) (ht : readWord w = some t) (hstop : Stops rest) :
    lexFrom .between (w ++ rest) = (lexFrom .between rest).map (t :: ·) := by
  cases w with
  | nil => exact absurd rfl hne
  | cons c w =>
    obtain ⟨hc, hw⟩ := List.forall_mem_cons.mp hw
    have hread : readWord (w.reverse ++ [c]).reverse = some t := by simpa using ht
    rw [List.cons_append, @lexFrom_step .between _ _ (enter_word hc), lexFrom_run hw,
      lexFrom_stop hread hstop]

/-! ## Numbers -/

theorem isWordChar_of_isDigit {c : Char} (h : c.isDigit = true) : isWordChar c = true := by
  simp [isWordChar, Char.isAlphanum, h]

/-- No number but zero starts with a zero. -/
theorem head_toDigits {n : Nat} (h : n ≠ 0) : (Nat.toDigits 10 n).head? ≠ some '0' := by
  induction n using Nat.strongRecOn with
  | _ n ih =>
    rcases Nat.lt_or_ge n 10 with hlt | hge
    · rw [Nat.toDigits_of_lt_base hlt]
      intro hzero
      have hvalue := Nat.toNat_digitChar_sub_48_of_lt_ten hlt
      rw [Option.some.inj hzero] at hvalue
      exact h hvalue.symm
    · have hhigh := ih (n / 10) (by omega) (by omega)
      rw [Nat.toDigits_of_base_le (by omega) hge, List.head?_append]
      cases hd : Nat.toDigits 10 (n / 10) with
      | nil => exact absurd hd Nat.toDigits_ne_nil
      | cons c cs =>
        rw [hd] at hhigh
        exact hhigh

theorem isNatural_toDigits (n : Nat) : isNatural (Nat.toDigits 10 n) = true := by
  have hdigits : ∀ c ∈ Nat.toDigits 10 n, c.isDigit = true := fun c hc =>
    Nat.isDigit_of_mem_toDigits (by omega) (by omega) hc
  have hne : Nat.toDigits 10 n ≠ [] := Nat.toDigits_ne_nil
  rcases Nat.eq_zero_or_pos n with rfl | hpos
  · rfl
  · have hhead := head_toDigits (Nat.pos_iff_ne_zero.mp hpos)
    simp [isNatural, isDigits, hne, hhead]
    exact hdigits

theorem unsigned_of_digit {c : Char} {cs : List Char} (h : c.isDigit = true) :
    unsigned (c :: cs) = c :: cs := by
  unfold unsigned
  split
  · next heq =>
    obtain ⟨rfl, -⟩ := List.cons.inj heq
    exact absurd h (by decide)
  · rfl

theorem exists_toDigits (n : Nat) : ∃ c cs, Nat.toDigits 10 n = c :: cs ∧ c.isDigit = true := by
  cases hd : Nat.toDigits 10 n with
  | nil => exact absurd hd Nat.toDigits_ne_nil
  | cons c cs =>
    exact ⟨c, cs, rfl, Nat.isDigit_of_mem_toDigits (b := 10) (n := n) (by omega) (by omega)
      (by rw [hd]; exact List.mem_cons_self)⟩

theorem isInteger_writeInt (n : Int) : isInteger (writeInt n) = true := by
  unfold writeInt isInteger
  split
  · exact isNatural_toDigits n.natAbs
  · obtain ⟨c, cs, hcs, hc⟩ := exists_toDigits n.natAbs
    rw [hcs, unsigned_of_digit hc, ← hcs]
    exact isNatural_toDigits n.natAbs

theorem readInt_writeInt (n : Int) : readInt (writeInt n) = n := by
  unfold writeInt
  split
  · simp only [readInt, Nat.ofDigitChars_ten_toDigits]
    omega
  · obtain ⟨c, cs, hcs, hc⟩ := exists_toDigits n.natAbs
    have hread : readInt (c :: cs) = Nat.ofDigitChars 10 (c :: cs) 0 := by
      unfold readInt
      split
      · next heq =>
        obtain ⟨rfl, -⟩ := List.cons.inj heq
        exact absurd hc (by decide)
      · rfl
    rw [hcs, hread, ← hcs, Nat.ofDigitChars_ten_toDigits]
    omega

/-- The words are no numbers. -/
theorem readWord_of_number {cs : List Char} (h : isInteger cs = true ∨ isDecimal cs = true) :
    readWord cs = if isInteger cs then some (.int (readInt cs))
      else if h : isDecimal cs = true then some (.float ⟨cs, h⟩) else none := by
  have hne : ∀ w : List Char, isInteger w = false → isDecimal w = false → cs ≠ w := by
    rintro w hint hdec rfl
    simp [hint, hdec] at h
  unfold readWord
  rw [if_neg (hne _ (by decide) (by decide)), if_neg (hne _ (by decide) (by decide)),
    if_neg (hne _ (by decide) (by decide)), if_neg (hne _ (by decide) (by decide)),
    if_neg (hne _ (by decide) (by decide)), if_neg (hne _ (by decide) (by decide))]

theorem readWord_writeInt (n : Int) : readWord (writeInt n) = some (.int n) := by
  rw [readWord_of_number (.inl (isInteger_writeInt n)), if_pos (isInteger_writeInt n),
    readInt_writeInt]

/-- The characters of an integer. -/
theorem isWordChar_of_isInteger {cs : List Char} (h : isInteger cs = true) :
    ∀ c ∈ cs, isWordChar c = true := by
  have hall : ∀ ds : List Char, isNatural ds = true → ∀ c ∈ ds, isWordChar c = true := by
    intro ds hds c hc
    simp only [isNatural, isDigits, Bool.and_eq_true, List.all_eq_true] at hds
    exact isWordChar_of_isDigit (hds.1.2 c hc)
  unfold isInteger unsigned at h
  split at h
  · exact List.forall_mem_cons.mpr ⟨by decide, hall _ h⟩
  · exact hall _ h

/-- What a text is cut into at the first character that fails `p`. -/
theorem span_spec (p : Char → Bool) (cs : List Char) :
    cs = (cs.span p).1 ++ (cs.span p).2 ∧
      ((cs.span p).2 = [] ∨ ∃ c rest, (cs.span p).2 = c :: rest ∧ p c = false) := by
  rw [List.span_eq_takeWhile_dropWhile]
  refine ⟨List.takeWhile_append_dropWhile.symm, ?_⟩
  have hhead := List.head?_dropWhile_not p cs
  cases hd : cs.dropWhile p with
  | nil => exact .inl rfl
  | cons c rest =>
    rw [hd] at hhead
    exact .inr ⟨c, rest, rfl, hhead⟩

theorem isWordChar_of_isDigits {cs : List Char} (h : isDigits cs = true) :
    ∀ c ∈ cs, isWordChar c = true := by
  intro c hc
  simp only [isDigits, Bool.and_eq_true, List.all_eq_true] at h
  exact isWordChar_of_isDigit (h.2 c hc)

theorem isWordChar_of_isExponent {cs : List Char} (h : isExponent cs = true) :
    ∀ c ∈ cs, isWordChar c = true := by
  unfold isExponent at h
  split at h
  · exact List.forall_mem_cons.mpr ⟨by decide, isWordChar_of_isDigits h⟩
  · exact List.forall_mem_cons.mpr ⟨by decide, isWordChar_of_isDigits h⟩
  · exact isWordChar_of_isDigits h

/-- The parts of a number that is not an integer. -/
theorem of_isDecimal {cs : List Char} (h : isDecimal cs = true) :
    ∃ whole tail, cs = whole ++ tail ∧ isInteger whole = true ∧
      (∀ c ∈ tail, isWordChar c = true) ∧
      ∃ c rest, tail = c :: rest ∧ (c = '.' ∨ isMark c = true) := by
  obtain ⟨hcs, hexponent⟩ := span_spec (fun c => !isMark c) cs
  obtain ⟨hmantissa, hfraction⟩ := span_spec (fun c => c != '.') (cs.span fun c => !isMark c).1
  simp only [isDecimal] at h
  generalize (cs.span fun c => !isMark c).2 = exponent at *
  generalize (cs.span fun c => !isMark c).1 = mantissa at *
  generalize (mantissa.span fun c => c != '.').2 = fraction at *
  generalize (mantissa.span fun c => c != '.').1 = whole at *
  simp only [Bool.and_eq_true, Bool.or_eq_true, Bool.not_eq_true'] at h
  obtain ⟨⟨⟨hwhole, hfrac⟩, hexp⟩, hsome⟩ := h
  have hfracChars : ∀ c ∈ fraction, isWordChar c = true := by
    rcases hfraction with rfl | ⟨c, rest, rfl, hc⟩
    · simp
    · obtain rfl : c = '.' := by simpa using hc
      exact List.forall_mem_cons.mpr ⟨by decide, isWordChar_of_isDigits (by simpa using hfrac)⟩
  have hexpChars : ∀ c ∈ exponent, isWordChar c = true := by
    rcases hexponent with rfl | ⟨c, rest, rfl, hc⟩
    · simp
    · have hc : isMark c = true := by simpa using hc
      have hmark : c = 'e' ∨ c = 'E' := by simpa [isMark] using hc
      refine List.forall_mem_cons.mpr ⟨?_, isWordChar_of_isExponent (by simpa using hexp)⟩
      rcases hmark with rfl | rfl <;> decide
  refine ⟨whole, fraction ++ exponent, by rw [hcs, hmantissa, List.append_assoc], hwhole, ?_, ?_⟩
  · exact List.forall_mem_append.mpr ⟨hfracChars, hexpChars⟩
  · rcases hfraction with rfl | ⟨c, rest, rfl, hc⟩
    · rcases hexponent with rfl | ⟨c, rest, rfl, hc⟩
      · simp at hsome
      · exact ⟨c, rest, rfl, .inr (by simpa using hc)⟩
    · exact ⟨c, rest ++ exponent, rfl, .inl (by simpa using hc)⟩

theorem isWordChar_of_isDecimal {cs : List Char} (h : isDecimal cs = true) :
    ∀ c ∈ cs, isWordChar c = true := by
  obtain ⟨whole, tail, rfl, hwhole, htail, -⟩ := of_isDecimal h
  exact List.forall_mem_append.mpr ⟨isWordChar_of_isInteger hwhole, htail⟩

/-- Such a number is not an integer. -/
theorem isInteger_of_isDecimal {cs : List Char} (h : isDecimal cs = true) :
    isInteger cs = false := by
  obtain ⟨whole, tail, rfl, hwhole, -, c, rest, rfl, hc⟩ := of_isDecimal h
  by_contra hint
  have hdigit : c = '-' ∨ c.isDigit = true := by
    have hall : ∀ ds : List Char, isNatural ds = true → ∀ d ∈ ds, d.isDigit = true := by
      intro ds hds d hd
      simp only [isNatural, isDigits, Bool.and_eq_true, List.all_eq_true] at hds
      exact hds.1.2 d hd
    have hmem : c ∈ whole ++ c :: rest := by simp
    simp only [Bool.not_eq_false] at hint
    unfold isInteger unsigned at hint
    split at hint
    · next heq =>
      rw [heq] at hmem
      exact (List.mem_cons.mp hmem).imp_right (hall _ hint c)
    · exact .inr (hall _ hint c hmem)
  have hmark : c = '.' ∨ c = 'e' ∨ c = 'E' := by simpa [isMark] using hc
  rcases hmark with rfl | rfl | rfl <;> exact absurd hdigit (by decide)

theorem readWord_decimal (x : Decimal) : readWord x.text = some (.float x) := by
  rw [readWord_of_number (.inr x.spelled), if_neg (by simp [isInteger_of_isDecimal x.spelled]),
    dif_pos x.spelled]

/-! ## Strings -/

theorem hexValue_hexDigit : ∀ {n : Nat}, n < 16 → hexValue (hexDigit n) = some n := by decide

/-- The four digits of a code unit. -/
theorem lexFrom_unit {read : List Char} {high : Option Nat} {n : Nat} {mode : Mode}
    (hn : n < 65536) (hclose : closeUnit read high n = some mode) (rest : List Char) :
    lexFrom (.unit read high 0 3) ((unicodeEscape n).drop 2 ++ rest) = lexFrom mode rest := by
  have hmod : ∀ k, k % 16 < 16 := fun k => Nat.mod_lt k (by omega)
  have hvalue : 16 * (16 * (16 * (16 * 0 + n / 4096 % 16) + n / 256 % 16) + n / 16 % 16) + n % 16 =
      n := by omega
  have hdigit : ∀ {k value missing : Nat}, step (.unit read high value (missing + 1))
      (hexDigit (k % 16)) = some ([], .unit read high (16 * value + k % 16) missing) := by
    intro k value missing
    simp [step, hexValue_hexDigit (hmod k)]
  have hlast : step (.unit read high
      (16 * (16 * (16 * 0 + n / 4096 % 16) + n / 256 % 16) + n / 16 % 16) 0) (hexDigit (n % 16)) =
      some ([], mode) := by
    simp only [step, hexValue_hexDigit (hmod n), hvalue, Option.bind_eq_bind, Option.bind_some,
      hclose, Option.map_some]
  simp only [unicodeEscape, List.drop_succ_cons, List.drop_zero, List.cons_append, List.nil_append]
  rw [lexFrom_step hdigit, lexFrom_step hdigit, lexFrom_step hdigit, lexFrom_step hlast]

/-- A code unit with its backslash. -/
theorem lexFrom_unicodeEscape {read : List Char} {n : Nat} {mode : Mode} (hn : n < 65536)
    (hclose : closeUnit read none n = some mode) (rest : List Char) :
    lexFrom (.string read) (unicodeEscape n ++ rest) = lexFrom mode rest := by
  have hslash : step (.string read) '\\' = some ([], .escape read) := rfl
  have hu : step (.escape read) 'u' = some ([], .unit read none 0 3) := rfl
  rw [← lexFrom_unit hn hclose rest]
  exact (lexFrom_step hslash _).trans (lexFrom_step hu _)

/-- A character beyond the basic plane, as a pair. -/
theorem lexFrom_pair {read : List Char} {n : Nat} (hlow : 65536 ≤ n) (hhigh : n < 1114112)
    (rest : List Char) :
    lexFrom (.string read) (unicodeEscape (55296 + (n - 65536) / 1024) ++
      (unicodeEscape (56320 + (n - 65536) % 1024) ++ rest)) =
        lexFrom (.string (Char.ofNat n :: read)) rest := by
  have hfirst : closeUnit read none (55296 + (n - 65536) / 1024) =
      some (.half read (55296 + (n - 65536) / 1024)) := by
    simp only [closeUnit]
    rw [if_pos (by omega)]
  have hsecond : closeUnit read (some (55296 + (n - 65536) / 1024)) (56320 + (n - 65536) % 1024) =
      some (.string (Char.ofNat n :: read)) := by
    simp only [closeUnit]
    rw [if_pos (by omega), show 65536 + (55296 + (n - 65536) / 1024 - 55296) * 1024 +
      (56320 + (n - 65536) % 1024 - 56320) = n by omega]
  have hslash : ∀ high, step (.half read high) '\\' = some ([], .halfEscape read high) :=
    fun _ => rfl
  have hu : ∀ high, step (.halfEscape read high) 'u' = some ([], .unit read (some high) 0 3) :=
    fun _ => rfl
  rw [lexFrom_unicodeEscape (by omega) hfirst, ← lexFrom_unit (by omega) hsecond rest]
  exact (lexFrom_step (hslash _) _).trans (lexFrom_step (hu _) _)

/-- One escaped character. -/
theorem lexFrom_escape (ascii : Bool) (read : List Char) (c : Char) (rest : List Char) :
    lexFrom (.string read) (escape ascii c ++ rest) = lexFrom (.string (c :: read)) rest := by
  have hshort : ∀ {d : Char}, unescape d = some c → d ≠ 'u' →
      lexFrom (.string read) (['\\', d] ++ rest) = lexFrom (.string (c :: read)) rest := by
    intro d hd hne
    have hslash : step (.string read) '\\' = some ([], .escape read) := rfl
    have hstep : step (.escape read) d = some ([], .string (c :: read)) := by simp [step, hne, hd]
    exact (lexFrom_step hslash _).trans (lexFrom_step hstep _)
  have hvalid := c.valid
  have hclose : c.toNat < 65536 → closeUnit read none c.toNat = some (.string (c :: read)) := by
    intro hbound
    have hscalar : c.toNat < 55296 ∨ 57343 < c.toNat := hvalid.imp id And.left
    simp only [closeUnit]
    rw [if_neg (by omega), if_neg (by omega), Char.ofNat_toNat]
  unfold escape
  split_ifs with hq hb hn hr ht h8 h12 h32 hplain hbmp
  · subst hq
    exact hshort rfl (by decide)
  · subst hb
    exact hshort rfl (by decide)
  · subst hn
    exact hshort rfl (by decide)
  · subst hr
    exact hshort rfl (by decide)
  · subst ht
    exact hshort rfl (by decide)
  · have hback : unescape 'b' = some c := by rw [← Char.ofNat_toNat c, h8]; rfl
    exact hshort hback (by decide)
  · have hfeed : unescape 'f' = some c := by rw [← Char.ofNat_toNat c, h12]; rfl
    exact hshort hfeed (by decide)
  · exact lexFrom_unicodeEscape (by omega) (hclose (by omega)) rest
  · have hstep : step (.string read) c = some ([], .string (c :: read)) := by
      simp [step, hq, hb, h32]
    exact lexFrom_step hstep rest
  · exact lexFrom_unicodeEscape hbmp (hclose hbmp) rest
  · have hbound : c.toNat < 1114112 := by
      rcases hvalid with hlt | ⟨-, hlt⟩
      · have hlt : c.toNat < 55296 := hlt
        omega
      · exact hlt
    rw [List.append_assoc, lexFrom_pair (by omega) hbound, Char.ofNat_toNat]

/-- A quoted string. -/
theorem lexFrom_quote (ascii : Bool) (s : String) (rest : List Char) :
    lexFrom .between (quote ascii s ++ rest) = (lexFrom .between rest).map (.str s :: ·) := by
  have hchars : ∀ (cs read rest : List Char), lexFrom (.string read)
      (cs.flatMap (escape ascii) ++ rest) = lexFrom (.string (cs.reverse ++ read)) rest := by
    intro cs
    induction cs with
    | nil => exact fun read rest => rfl
    | cons c cs ih =>
      intro read rest
      rw [List.flatMap_cons, List.append_assoc, lexFrom_escape, ih, List.reverse_cons,
        List.append_assoc]
      rfl
  have hopen : step .between '"' = some ([], .string []) := rfl
  have hclose : step (.string s.toList.reverse) '"' = some ([.str s], .between) := by
    simp [step]
  simp only [quote, List.cons_append, List.append_assoc]
  rw [lexFrom_step hopen, hchars, List.append_nil]
  exact lexFrom_token hclose rest

/-! ## Values -/

/-- The lexer reads a value, up to where its last word stops. -/
def Lexed (layout : Layout) (v : Value) : Prop :=
  ∀ depth rest, Stops rest →
    lexFrom .between (write layout depth v ++ rest) = (lexFrom .between rest).map (tokens v ++ ·)

section Lexing

variable {layout : Layout} {depth : Nat}

theorem isWhite_gap (layout : Layout) (depth : Nat) : ∀ c ∈ layout.gap depth, isWhite c = true := by
  intro c hc
  unfold Layout.gap at hc
  split at hc
  · cases hc
  · rcases List.mem_cons.mp hc with rfl | hc
    · rfl
    · rw [List.eq_of_mem_replicate hc]
      rfl

/-- Between two items. -/
theorem lexFrom_comma (layout : Layout) (depth : Nat) (rest : List Char) :
    lexFrom .between (layout.comma depth ++ rest) = (lexFrom .between rest).map (.comma :: ·) := by
  have hcomma : step .between ',' = some ([.comma], .between) := rfl
  have hwhite : ∀ cs : List Char, (∀ c ∈ cs, isWhite c = true) →
      lexFrom .between (',' :: cs ++ rest) = (lexFrom .between rest).map (.comma :: ·) := by
    intro cs hcs
    rw [List.cons_append, lexFrom_token hcomma, lexFrom_white hcs]
  unfold Layout.comma
  split
  · exact hwhite [' '] (List.all_eq_true.mp rfl)
  · exact hwhite _ (isWhite_gap layout depth)

/-- A gap, and the bracket behind it. -/
theorem lexFrom_close {bracket : Char} {t : Token}
    (h : step .between bracket = some ([t], .between)) (rest : List Char) :
    lexFrom .between (layout.gap depth ++ bracket :: rest) =
      (lexFrom .between rest).map (t :: ·) := by
  rw [lexFrom_white (isWhite_gap layout depth), lexFrom_token h]

theorem stops_gap (layout : Layout) (depth : Nat) {bracket : Char}
    (h : isWordChar bracket = false) (rest : List Char) :
    Stops (layout.gap depth ++ bracket :: rest) := by
  unfold Layout.gap
  split
  · exact stops_cons h
  · exact stops_cons (by decide)

theorem stops_items (inner : Nat) (vs : List Value) {rest : List Char} (h : Stops rest) :
    Stops (writeItems layout inner vs ++ rest) := by
  cases vs with
  | nil => exact h
  | cons v vs =>
    simp only [writeItems, Layout.comma]
    split <;> exact stops_cons (by decide)

theorem stops_fields (inner : Nat) (fields : List (String × Value)) {rest : List Char}
    (h : Stops rest) :
    Stops (writeFields layout inner fields ++ rest) := by
  cases fields with
  | nil => exact h
  | cons f fields =>
    simp only [writeFields, Layout.comma]
    split <;> exact stops_cons (by decide)

/-- The items behind the first one, and the bracket. -/
theorem lexFrom_items {vs : List Value} (h : ∀ v ∈ vs, Lexed layout v) (inner outer : Nat)
    (rest : List Char) :
    lexFrom .between (writeItems layout inner vs ++ (layout.gap outer ++ ']' :: rest)) =
      (lexFrom .between rest).map (itemTokens vs ++ ·) := by
  induction vs with
  | nil => exact lexFrom_close rfl rest
  | cons v vs ih =>
    obtain ⟨hv, hvs⟩ := List.forall_mem_cons.mp h
    have hstops : Stops (writeItems layout inner vs ++ (layout.gap outer ++ ']' :: rest)) :=
      stops_items inner vs (stops_gap layout outer (by decide) rest)
    simp only [writeItems, itemTokens, List.append_assoc]
    rw [lexFrom_comma, hv inner _ hstops, ih hvs]
    simp only [Option.map_map, Function.comp_def, List.cons_append, List.append_assoc]

/-- A key, and its value with the fields behind it. -/
theorem lexFrom_field (key : String) (cs : List Char) {ts : List Token} {rest : List Char}
    (h : lexFrom .between cs = (lexFrom .between rest).map (ts ++ ·)) :
    lexFrom .between (quote layout.ascii key ++ ([':', ' '] ++ cs)) =
      (lexFrom .between rest).map (.str key :: .colon :: ts ++ ·) := by
  have hcolon : step .between ':' = some ([.colon], .between) := rfl
  have hblank : ∀ c ∈ [' '], isWhite c = true := List.all_eq_true.mp rfl
  rw [lexFrom_quote, List.cons_append, lexFrom_token hcolon, lexFrom_white hblank, h]
  simp only [Option.map_map, Function.comp_def, List.cons_append]

/-- The fields behind the first one, and the brace. -/
theorem lexFrom_fields {fields : List (String × Value)} (h : ∀ f ∈ fields, Lexed layout f.2)
    (inner outer : Nat) (rest : List Char) :
    lexFrom .between (writeFields layout inner fields ++ (layout.gap outer ++ '\x7d' :: rest)) =
      (lexFrom .between rest).map (fieldTokens fields ++ ·) := by
  induction fields with
  | nil => exact lexFrom_close rfl rest
  | cons f fields ih =>
    obtain ⟨hf, hfields⟩ := List.forall_mem_cons.mp h
    have hstops : Stops (writeFields layout inner fields ++ (layout.gap outer ++ '\x7d' :: rest)) :=
      stops_fields inner fields (stops_gap layout outer (by decide) rest)
    have hvalue : lexFrom .between (write layout inner f.2 ++
        (writeFields layout inner fields ++ (layout.gap outer ++ '\x7d' :: rest))) =
          (lexFrom .between rest).map (tokens f.2 ++ fieldTokens fields ++ ·) := by
      rw [hf inner _ hstops, ih hfields]
      simp only [Option.map_map, Function.comp_def, List.append_assoc]
    simp only [writeFields, List.append_assoc]
    rw [lexFrom_comma, lexFrom_field f.1 _ hvalue]
    simp only [fieldTokens, Option.map_map, Function.comp_def, List.cons_append]

theorem ne_nil_of_readWord {cs : List Char} {t : Token} (h : readWord cs = some t) : cs ≠ [] := by
  rintro rfl
  have hnone : readWord [] = none := by decide
  rw [hnone] at h
  cases h

/-- A value that is one word. -/
theorem lexed_word {v : Value} {w : List Char} {t : Token}
    (hwrite : ∀ depth, write layout depth v = w) (hv : tokens v = [t])
    (hchars : ∀ c ∈ w, isWordChar c = true) (hread : readWord w = some t) : Lexed layout v := by
  intro depth rest hstop
  rw [hwrite, lexFrom_word hchars (ne_nil_of_readWord hread) hread hstop, hv]
  rfl

/-- The text of a value gives its tokens. -/
theorem lexFrom_write (v : Value) : Lexed layout v := by
  induction v using Value.induct with
  | null => exact lexed_word (fun _ => rfl) rfl (List.all_eq_true.mp rfl) (by decide)
  | bool b => cases b <;> exact lexed_word (fun _ => rfl) rfl (List.all_eq_true.mp rfl) (by decide)
  | int n =>
    exact lexed_word (fun _ => rfl) rfl (isWordChar_of_isInteger (isInteger_writeInt n))
      (readWord_writeInt n)
  | float x =>
    exact lexed_word (fun _ => rfl) rfl (isWordChar_of_isDecimal x.spelled) (readWord_decimal x)
  | special s =>
    cases s <;> exact lexed_word (fun _ => rfl) rfl (List.all_eq_true.mp rfl) (by decide)
  | str s => exact fun depth rest _ => lexFrom_quote layout.ascii s rest
  | list vs ih =>
    intro depth rest _
    have hopen : step .between '[' = some ([.openList], .between) := rfl
    cases vs with
    | nil =>
      have hclose : step .between ']' = some ([.closeList], .between) := rfl
      simp only [write, tokens, List.cons_append, List.nil_append]
      rw [lexFrom_token hopen, lexFrom_token hclose, Option.map_map]
      rfl
    | cons v vs =>
      obtain ⟨hv, hvs⟩ := List.forall_mem_cons.mp ih
      have hstops : Stops (writeItems layout (depth + 1) vs ++ (layout.gap depth ++ ']' :: rest)) :=
        stops_items _ vs (stops_gap layout depth (by decide) rest)
      simp only [write, tokens, List.cons_append, List.append_assoc, List.nil_append]
      rw [lexFrom_token hopen, lexFrom_white (isWhite_gap layout _), hv _ _ hstops,
        lexFrom_items hvs]
      simp only [Option.map_map, Function.comp_def]
  | dict fields ih =>
    intro depth rest _
    have hopen : step .between '\x7b' = some ([.openDict], .between) := rfl
    rcases fields with _ | ⟨⟨key, v⟩, fields⟩
    · have hclose : step .between '\x7d' = some ([.closeDict], .between) := rfl
      simp only [write, tokens, List.cons_append, List.nil_append]
      rw [lexFrom_token hopen, lexFrom_token hclose, Option.map_map]
      rfl
    · obtain ⟨hv, hfields⟩ := List.forall_mem_cons.mp ih
      have hstops : Stops (writeFields layout (depth + 1) fields ++
          (layout.gap depth ++ '\x7d' :: rest)) :=
        stops_fields _ fields (stops_gap layout depth (by decide) rest)
      have hvalue : lexFrom .between (write layout (depth + 1) v ++
          (writeFields layout (depth + 1) fields ++ (layout.gap depth ++ '\x7d' :: rest))) =
            (lexFrom .between rest).map (tokens v ++ fieldTokens fields ++ ·) := by
        rw [hv _ _ hstops, lexFrom_fields hfields]
        simp only [Option.map_map, Function.comp_def, List.append_assoc]
      have hfield := @lexFrom_field layout key _ _ _ hvalue
      simp only [List.cons_append, List.nil_append] at hfield
      simp only [write, tokens, List.cons_append, List.append_assoc, List.nil_append]
      rw [lexFrom_token hopen, lexFrom_white (isWhite_gap layout _), hfield]
      simp only [Option.map_map, Function.comp_def, List.append_assoc]

end Lexing

/-! ## Texts -/

/-- What was written is read. -/
theorem loads_dumps (layout : Layout) (v : Value) : loads (dumps layout v) = some v := by
  have hlex := @lexFrom_write layout v 0 [] (fun c hc => by cases hc)
  rw [List.append_nil] at hlex
  rw [loads, dumps, String.toList_ofList, hlex]
  simp only [lexFrom, Option.map_some, List.append_nil, Option.bind_some]
  exact parse_iff.mpr rfl

end DiaryMemory.JsonText
