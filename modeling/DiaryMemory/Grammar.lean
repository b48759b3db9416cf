import DiaryMemory.Commands
import DiaryMemory.Texts

/-!
# The command grammar

A command text is a command token, an optional bot suffix, a gap of spaces and newlines, and
the rest, which becomes the payload. `parseCommand` reads exactly these texts, except when a
bare command is followed by a newline and then by a space or nothing : the newline stays on
the token, and the text is taken for plain text (`parseCommand_iff`).
-/

namespace DiaryMemory

open PyText Trimming

/-- The characters that end a command. -/
def isGap (c : Char) : Bool := c == ' ' || c == '\n'

/-- `text` is a command of `route`, an optional bot suffix, a gap, and `r`. -/
def CommandText (text : String) (route : RouteKind) (r : List Char) : Prop :=
  ∃ (c : String) (s d : List Char), commandTokens.lookup c = some route ∧
    text.toList = c.toList ++ s ++ d ++ r ∧
    (s = [] ∨ ∃ bot, s = '@' :: bot ∧ ∀ x ∈ bot, isGap x = false) ∧
    (∀ x ∈ d, isGap x) ∧ (d = [] → r = []) ∧ ∀ x ∈ r.head?, isGap x = false

/-- `payload` is `r` without its leading white space; one trailing space may be gone too. -/
def PayloadOf (r : List Char) (payload : String) : Prop :=
  payload = lstrip (String.ofList r) ∨
    ∃ r', r = r' ++ [' '] ∧ payload = lstrip (String.ofList r')

/-- `parseCommand` reads `text` by the grammar. -/
structure ReadsGrammar (text : String) : Prop where
  accepts : ∀ route r, CommandText text route r →
    (parseCommand (some text)).1 = route ∧ PayloadOf r (parseCommand (some text)).2
  rejects : (∀ route r, ¬ CommandText text route r) → parseCommand (some text) = (.unknown, text)

/-- A command without a suffix, followed by a newline and then by a space or nothing. -/
def BareNewline (text : String) : Prop :=
  ∃ (c : String) (u : List Char), (commandTokens.lookup c).isSome ∧
    text.toList = c.toList ++ '\n' :: u ∧ ∀ x ∈ u.head?, x = ' '

/-! ## Partitions -/

section Partition

variable {sep : Char} {a b : List Char}

theorem partition_append (h : sep ∉ a) (hb : ∀ x ∈ b.head?, x = sep) :
    partition sep (String.ofList (a ++ b)) = (String.ofList a, String.ofList (b.drop 1)) := by
  have ha : ∀ x ∈ a, (x != sep) = true := fun x hx => bne_iff_ne.mpr fun he => h (he ▸ hx)
  have hstop : ∀ x ∈ b.head?, (x != sep) = false := fun x hx => by simp [hb x hx]
  rw [partition, String.toList_ofList, takeWhile_append_stop ha hstop,
    dropWhile_append_stop ha hstop]

theorem partition_of_notMem (h : sep ∉ a) :
    partition sep (String.ofList a) = (String.ofList a, "") := by
  have := partition_append (b := []) h (by simp)
  simpa using this

/-- Every text is what stands before the first `sep`, and what starts with it. -/
theorem exists_partition (sep : Char) (l : List Char) :
    ∃ a b, l = a ++ b ∧ sep ∉ a ∧ ∀ x ∈ b.head?, x = sep := by
  refine ⟨l.takeWhile (· != sep), l.dropWhile (· != sep),
    List.takeWhile_append_dropWhile.symm, ?_, ?_⟩
  · intro h
    simpa using List.mem_takeWhile_imp h
  · intro x hx
    simpa using head_dropWhile x hx

end Partition

/-! ## Reading a command -/

theorem isSpace_of_isGap {c : Char} (h : isGap c) : isSpace c := by
  rcases Bool.or_eq_true_iff.mp h with h | h
  · rw [beq_iff_eq.mp h]
    decide
  · rw [beq_iff_eq.mp h]
    decide

/-- A command token has neither a gap nor a suffix in it. -/
theorem token_chars {c : String} {route : RouteKind} (h : commandTokens.lookup c = some route) :
    (∀ x ∈ c.toList, isGap x = false ∧ x ≠ '@') ∧ route ≠ .unknown ∧ c ≠ "" := by
  have hall : ∀ t ∈ commandTokens, (t.1.toList.all fun x => !isGap x && x ≠ '@') = true ∧
      t.2 ≠ .unknown ∧ t.1 ≠ "" := by decide
  obtain ⟨l, r, hl, -⟩ := List.lookup_eq_some_iff.mp h
  obtain ⟨hchars, hroute⟩ := hall (c, route) (by simp [hl])
  exact ⟨fun x hx => by simpa using List.all_eq_true.mp hchars x hx, hroute⟩

theorem lstrip_gap (v : List Char) :
    lstrip (String.ofList (v.dropWhile isGap)) = lstrip (String.ofList v) := by
  have h : (v.dropWhile isGap).dropWhile isSpace = v.dropWhile isSpace := by
    conv_rhs => rw [← List.takeWhile_append_dropWhile (p := isGap) (l := v)]
    rw [List.dropWhile_append_of_pos fun x hx => isSpace_of_isGap (List.mem_takeWhile_imp hx)]
  simp only [lstrip, String.toList_ofList, h]

theorem payloadOf_gap (v : List Char) :
    PayloadOf (v.dropWhile isGap) (lstrip (String.ofList v)) :=
  .inl (lstrip_gap v).symm

/-- What `parseCommand` does with the token and the text after it. -/
def readToken (text head rest : String) : RouteKind × String :=
  match commandTokens.lookup (partition '@' head).1 with
  | none => (.unknown, text)
  | some route => (route, lstrip rest)

theorem parseCommand_of_space {text head rest : String} (hne : text ≠ "")
    (hspace : partition ' ' text = (head, rest)) (hline : (partition '\n' head).2 = "") :
    parseCommand (some text) = readToken text head rest := by
  unfold parseCommand
  split
  · rename_i h
    cases h
  · rename_i h
    exact absurd (Option.some.inj h) hne
  · rename_i h
    cases h
    simp only [hspace, hline, ne_eq, not_true, if_false]
    rfl

theorem parseCommand_of_newline {text first rest head after : String} (hne : text ≠ "")
    (hspace : partition ' ' text = (first, rest)) (hline : partition '\n' first = (head, after))
    (hafter : after ≠ "") :
    parseCommand (some text) =
      readToken text head (after ++ (if rest ≠ "" then " " ++ rest else "")) := by
  unfold parseCommand
  split
  · rename_i h
    cases h
  · rename_i h
    exact absurd (Option.some.inj h) hne
  · rename_i h
    cases h
    simp only [hspace, hline, hafter, ne_eq, not_false_eq_true, if_true]
    rfl

/-- A newline that ends the command token, followed by a space or nothing. -/
def BareGap (u : List Char) : Prop := ∃ v, u = '\n' :: v ∧ ∀ x ∈ v.head?, x = ' '

/-- The payload after a newline : a space at the very end is dropped when no other comes first. -/
theorem payloadOf_newline {first rest : List Char} (hrest : ∀ x ∈ rest.head?, x = ' ') :
    PayloadOf ((first ++ rest).dropWhile isGap)
      (lstrip (String.ofList first ++ (if String.ofList (rest.drop 1) ≠ "" then
        " " ++ String.ofList (rest.drop 1) else ""))) := by
  match rest, hrest with
  | [], _ =>
    left
    simp [lstrip_gap]
  | [x], h =>
    obtain rfl : x = ' ' := h x rfl
    have hdrop : lstrip (String.ofList first ++ "") = lstrip (String.ofList (first.dropWhile isGap)) := by
      rw [lstrip_gap, String.append_empty]
    simp only [List.drop_one, List.tail_cons, String.ofList_nil, ne_eq, not_true, if_false, hdrop]
    by_cases hblank : first.dropWhile isGap = []
    · left
      rw [List.dropWhile_append, hblank]
      rfl
    · right
      exact ⟨first.dropWhile isGap, by rw [List.dropWhile_append, if_neg (by simpa using hblank)], rfl⟩
  | x :: y :: rest, h =>
    obtain rfl : x = ' ' := h x rfl
    have hne : String.ofList (y :: rest) ≠ "" := by simp [← String.toList_inj]
    have hspace : " " = String.ofList [' '] := rfl
    left
    rw [lstrip_gap, List.drop_one, List.tail_cons, if_pos hne, hspace, ← String.ofList_append,
      ← String.ofList_append]
    rfl

/-- How a text is read : the token is what stands before the first gap, with the newline where
the gap is bare. -/
theorem parseCommand_read {w u : List Char} (hw : ∀ x ∈ w, isGap x = false)
    (hu : ∀ x ∈ u.head?, isGap x) (hne : w ++ u ≠ []) :
    ∃ head rest, parseCommand (some (String.ofList (w ++ u))) =
        readToken (String.ofList (w ++ u)) head rest ∧
      PayloadOf (u.dropWhile isGap) (lstrip rest) ∧
      (BareGap u ∧ head = String.ofList (w ++ ['\n']) ∨ ¬ BareGap u ∧ head = String.ofList w) := by
  have htext : String.ofList (w ++ u) ≠ "" := fun h => hne (by simpa using congrArg String.toList h)
  have hspace : ' ' ∉ w := fun h => by simpa [isGap] using hw _ h
  have hline : '\n' ∉ w := fun h => by simpa [isGap] using hw _ h
  cases u with
  | nil =>
    refine ⟨String.ofList w, "", ?_, payloadOf_gap [], .inr ⟨fun h => ?_, rfl⟩⟩
    · rw [List.append_nil] at htext ⊢
      exact parseCommand_of_space htext (partition_of_notMem hspace)
        (by rw [partition_of_notMem hline])
    · obtain ⟨v, hv, -⟩ := h
      cases hv
  | cons x v =>
    rcases Bool.or_eq_true_iff.mp (hu x rfl) with hx | hx
    · -- the command ends at a space
      obtain rfl : x = ' ' := beq_iff_eq.mp hx
      refine ⟨String.ofList w, String.ofList v, ?_, ?_, .inr ⟨fun h => ?_, rfl⟩⟩
      · exact parseCommand_of_space htext (partition_append hspace (by simp))
          (by rw [partition_of_notMem hline])
      · rw [List.dropWhile_cons_of_pos (by decide)]
        exact payloadOf_gap v
      · obtain ⟨v, hv, -⟩ := h
        cases hv
    · -- the command ends at a newline
      obtain rfl : x = '\n' := beq_iff_eq.mp hx
      obtain ⟨first, rest, rfl, hfirst, hrest⟩ := exists_partition ' ' v
      have hsplit : partition ' ' (String.ofList (w ++ '\n' :: (first ++ rest))) =
          (String.ofList (w ++ '\n' :: first), String.ofList (rest.drop 1)) := by
        rw [← List.cons_append, ← List.append_assoc]
        exact partition_append (by simp [hspace, hfirst]) hrest
      have hnewline : partition '\n' (String.ofList (w ++ '\n' :: first)) =
          (String.ofList w, String.ofList first) := partition_append hline (by simp)
      by_cases hempty : first = []
      · subst hempty
        refine ⟨String.ofList (w ++ ['\n']), String.ofList (rest.drop 1), ?_, ?_,
          .inl ⟨⟨rest, rfl, hrest⟩, rfl⟩⟩
        · exact parseCommand_of_space htext hsplit (by rw [hnewline])
        · rw [List.nil_append, List.dropWhile_cons_of_pos (by decide)]
          cases rest with
          | nil => exact payloadOf_gap []
          | cons y rest =>
            obtain rfl : y = ' ' := hrest y rfl
            rw [List.dropWhile_cons_of_pos (by decide), List.drop_one, List.tail_cons]
            exact payloadOf_gap rest
      · refine ⟨String.ofList w, _, parseCommand_of_newline htext hsplit hnewline
          (by simpa [← String.toList_inj] using hempty), ?_, .inr ⟨fun h => ?_, rfl⟩⟩
        · rw [List.dropWhile_cons_of_pos (by decide)]
          exact payloadOf_newline hrest
        · obtain ⟨v, hv, hbare⟩ := h
          cases hv
          obtain ⟨y, first, rfl⟩ := List.exists_cons_of_ne_nil hempty
          exact hfirst (by simp [hbare y rfl])

/-- The token in front of a suffix. -/
theorem token_append {a b : List Char} (ha : '@' ∉ a) (hb : ∀ x ∈ b.head?, x = '@') :
    (partition '@' (String.ofList (a ++ b))).1 = String.ofList a := by
  rw [partition_append ha hb]

theorem readToken_some {text head rest : String} {route : RouteKind}
    (h : commandTokens.lookup (partition '@' head).1 = some route) :
    readToken text head rest = (route, lstrip rest) := by
  simp only [readToken, h]

theorem readToken_none {text head rest : String}
    (h : commandTokens.lookup (partition '@' head).1 = none) :
    readToken text head rest = (.unknown, text) := by
  simp only [readToken, h]

/-- No token has a newline in it. -/
theorem lookup_newline {w : List Char} (h : '@' ∉ w) :
    commandTokens.lookup (partition '@' (String.ofList (w ++ ['\n']))).1 = none := by
  rw [partition_of_notMem (by simp [h])]
  cases hlookup : commandTokens.lookup (String.ofList (w ++ ['\n'])) with
  | none => rfl
  | some route =>
    have hgap := ((token_chars hlookup).1 '\n' (by simp)).1
    exact absurd hgap (by decide)

section Grammar

variable {text : String} {route : RouteKind} {r w u : List Char}

/-- A text whose token is a command is a command text. -/
theorem commandText_of_lookup (htext : text.toList = w ++ u) (hw : ∀ x ∈ w, isGap x = false)
    (hu : ∀ x ∈ u.head?, isGap x)
    (h : commandTokens.lookup (partition '@' (String.ofList w)).1 = some route) :
    CommandText text route (u.dropWhile isGap) := by
  obtain ⟨a, b, rfl, ha, hb⟩ := exists_partition '@' w
  rw [token_append ha hb] at h
  refine ⟨String.ofList a, b, u.takeWhile isGap, h, by simp [htext], ?_,
    fun x => List.mem_takeWhile_imp, ?_, head_dropWhile⟩
  · cases b with
    | nil => exact .inl rfl
    | cons x b =>
      obtain rfl : x = '@' := hb x rfl
      exact .inr ⟨b, rfl, fun y hy => hw y (by simp [hy])⟩
  · intro hnil
    cases u with
    | nil => rfl
    | cons x u => simp [List.takeWhile_cons_of_pos (hu x rfl)] at hnil

/-- Command texts are read as such, unless the newline after the token is bare. -/
theorem parseCommand_of_commandText (h : CommandText text route r) (hbare : ¬ BareNewline text) :
    (parseCommand (some text)).1 = route ∧ PayloadOf r (parseCommand (some text)).2 := by
  obtain ⟨c, s, d, hc, htext, hs, hd, hr, hrest⟩ := h
  obtain ⟨hchars, -, hcne⟩ := token_chars hc
  have hat : '@' ∉ c.toList := fun h => (hchars _ h).2 rfl
  have hsuffix : ∀ x ∈ s.head?, x = '@' := by
    rcases hs with rfl | ⟨bot, rfl, -⟩
    · simp
    · simp
  have hw : ∀ x ∈ c.toList ++ s, isGap x = false := by
    intro x hx
    rcases List.mem_append.mp hx with hx | hx
    · exact (hchars x hx).1
    · rcases hs with rfl | ⟨bot, rfl, hbot⟩
      · cases hx
      · rcases List.mem_cons.mp hx with rfl | hx
        · decide
        · exact hbot x hx
  have hu : ∀ x ∈ (d ++ r).head?, isGap x := by
    cases d with
    | nil => simp [hr rfl]
    | cons x d => simpa using hd x List.mem_cons_self
  obtain ⟨head, rest, hparse, hpayload, hhead⟩ := parseCommand_read hw hu (by simp [hcne])
  have hsplit : String.ofList (c.toList ++ s ++ (d ++ r)) = text := by
    rw [← String.toList_inj, htext]
    simp
  rw [hsplit] at hparse
  rw [dropWhile_append_stop hd hrest] at hpayload
  have htoken : commandTokens.lookup (partition '@' head).1 = some route := by
    rcases hhead with ⟨hgap, rfl⟩ | ⟨-, rfl⟩
    · -- a suffix keeps the newline away from the token
      rcases hs with rfl | ⟨bot, rfl, -⟩
      · obtain ⟨v, hv, hspace⟩ := hgap
        exact absurd ⟨c, v, by simp [hc], by simp [htext, ← hv], hspace⟩ hbare
      · rw [List.append_assoc, token_append hat (by simp), String.ofList_toList, hc]
    · rw [token_append hat hsuffix, String.ofList_toList, hc]
  rw [hparse, readToken_some htoken]
  exact ⟨rfl, hpayload⟩

/-- Every other text comes back unchanged. -/
theorem parseCommand_of_not_commandText (h : ∀ route r, ¬ CommandText text route r) :
    parseCommand (some text) = (.unknown, text) := by
  by_cases hempty : text = ""
  · rw [hempty]
    rfl
  · have hw : ∀ x ∈ text.toList.takeWhile fun c => !isGap c, isGap x = false := fun x hx => by
      simpa using List.mem_takeWhile_imp hx
    have hu : ∀ x ∈ (text.toList.dropWhile fun c => !isGap c).head?, isGap x := fun x hx => by
      simpa using head_dropWhile x hx
    have htext : text.toList =
        (text.toList.takeWhile fun c => !isGap c) ++ text.toList.dropWhile fun c => !isGap c :=
      List.takeWhile_append_dropWhile.symm
    generalize (text.toList.takeWhile fun c => !isGap c) = w at hw htext
    generalize (text.toList.dropWhile fun c => !isGap c) = u at hu htext
    have hlookup : commandTokens.lookup (partition '@' (String.ofList w)).1 = none := by
      cases hl : commandTokens.lookup (partition '@' (String.ofList w)).1 with
      | none => rfl
      | some route => exact absurd (commandText_of_lookup htext hw hu hl) (h _ _)
    obtain ⟨head, rest, hparse, -, hhead⟩ := parseCommand_read hw hu
      (by simpa [← htext] using hempty)
    rw [← htext, String.ofList_toList] at hparse
    rw [hparse]
    rcases hhead with ⟨-, rfl⟩ | ⟨-, rfl⟩
    · obtain ⟨a, b, rfl, ha, hb⟩ := exists_partition '@' w
      cases b with
      | nil =>
        rw [List.append_nil]
        exact readToken_none (lookup_newline ha)
      | cons x b =>
        rw [token_append ha hb] at hlookup
        refine readToken_none ?_
        rw [List.append_assoc, token_append ha (by simpa using hb), hlookup]
    · exact readToken_none hlookup

/-- A bare newline hides the command. -/
theorem parseCommand_bareNewline (h : BareNewline text) :
    parseCommand (some text) = (.unknown, text) ∧ ∃ route r, CommandText text route r := by
  obtain ⟨c, u, hc, htext, hu⟩ := h
  obtain ⟨route, hc⟩ := Option.isSome_iff_exists.mp hc
  obtain ⟨hchars, -, hcne⟩ := token_chars hc
  have hat : '@' ∉ c.toList := fun h => (hchars _ h).2 rfl
  have hw : ∀ x ∈ c.toList, isGap x = false := fun x hx => (hchars x hx).1
  have hgap : ∀ x ∈ ('\n' :: u).head?, isGap x := by simp [isGap]
  obtain ⟨head, rest, hparse, -, hhead⟩ := parseCommand_read hw hgap (by simp)
  rw [← htext, String.ofList_toList] at hparse
  rcases hhead with ⟨-, rfl⟩ | ⟨hnot, -⟩
  · refine ⟨hparse.trans (readToken_none (lookup_newline hat)), route, _,
      commandText_of_lookup htext hw hgap ?_⟩
    rw [partition_of_notMem hat, String.ofList_toList, hc]
  · exact absurd ⟨u, rfl, hu⟩ hnot

end Grammar

/-- `parseCommand` reads a text by its grammar exactly when the text is not a bare command
followed by a newline and then by a space or nothing. -/
theorem parseCommand_iff (text : String) : ReadsGrammar text ↔ ¬ BareNewline text := by
  constructor
  · intro hreads hbare
    obtain ⟨hparse, route, r, hcommand⟩ := parseCommand_bareNewline hbare
    have hroute := (hreads.accepts route r hcommand).1
    obtain ⟨c, _, _, hc, _⟩ := hcommand
    exact (token_chars hc).2.1 (by rw [← hroute, hparse])
  · intro hbare
    exact ⟨fun _ _ h => parseCommand_of_commandText h hbare, parseCommand_of_not_commandText⟩

/-- A `/note` with a newline and a space before its date is taken for plain text. -/
theorem parseCommand_newline_space :
    parseCommand (some "/note\n 2026-05-09") = (.unknown, "/note\n 2026-05-09") ∧
      ¬ ReadsGrammar "/note\n 2026-05-09" := by
  have hparse : parseCommand (some "/note\n 2026-05-09") = (.unknown, "/note\n 2026-05-09") := by
    decide
  refine ⟨hparse, fun h => ?_⟩
  have hgap : ∀ x ∈ ['\n', ' '], isGap x := List.all_eq_true.mp (by decide)
  have hroute := (h.accepts .note "2026-05-09".toList
    ⟨"/note", [], ['\n', ' '], by decide, by decide, .inl rfl, hgap, by decide, by simp; decide⟩).1
  rw [hparse] at hroute
  cases hroute

end DiaryMemory
