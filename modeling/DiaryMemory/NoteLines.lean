import DiaryMemory.DateTexts

/-!
# The lines of a note

The parser reads the content lines of a payload, and the dispatcher rewrites the first of them
or puts a date line before it. Both find the same first line (`normalizeNotePayload_spec`), so
that a normalized payload that is not blank always parses (`normalizedNote`), and normalizing
it again changes nothing. The parser alone accepts a payload whose first line is a canonical
date, or one of the wider forms that `date.fromisoformat` reads (`parseNote_strict_iff`).
-/

namespace DiaryMemory

open PyText Trimming

/-! ## Content lines -/

theorem contents_linesFrom (line cs : List Char) :
    contents isSpace (linesFrom line cs) =
      contents isSpace (List.splitOnPPrepend isLineBreak cs line) := by
  have hempty : ∀ ls : List (List Char), contents isSpace ([] :: ls) = contents isSpace ls :=
    contents_cons_blank (List.forall_mem_nil _)
  fun_induction linesFrom line cs with
  | case1 => rfl
  | case2 => rfl
  | case3 line cs ih =>
    have hsplit : List.splitOnP isLineBreak ('\n' :: cs) = [] :: List.splitOnP isLineBreak cs :=
      List.splitOnP_cons_eq_if_modifyHead '\n' cs
    rw [List.splitOnPPrepend_cons_pos (by decide), hsplit, ← List.singleton_append,
      ← List.singleton_append (l := [] :: _), contents_append, contents_append, hempty, ih]
    rfl
  | case4 line c cs hne hbreak ih =>
    rw [List.splitOnPPrepend_cons_pos hbreak, ← List.singleton_append,
      ← List.singleton_append (l := List.splitOnP _ _), contents_append, contents_append, ih]
    rfl
  | case5 line c cs hne hbreak ih =>
    rw [List.splitOnPPrepend_cons_neg (by simpa using hbreak), ih]

theorem strip_ofList (l : List Char) : strip (String.ofList l) = String.ofList (trim isSpace l) := by
  rw [← String.toList_inj, toList_strip, String.toList_ofList, String.toList_ofList]

theorem filter_strip (ls : List (List Char)) :
    ((ls.map String.ofList).map strip).filter (· ≠ "") =
      (contents isSpace ls).map String.ofList := by
  induction ls with
  | nil => rfl
  | cons l ls ih =>
    have hempty : String.ofList (trim isSpace l) ≠ "" ↔ trim isSpace l ≠ [] := by
      rw [Ne, ← String.toList_inj, String.toList_ofList]
      rfl
    by_cases hl : trim isSpace l = []
    · simp [contents, strip_ofList, hl] at ih ⊢
      exact ih
    · simp [contents, strip_ofList, hl, hempty.mpr hl] at ih ⊢
      exact ih

/-- The stripped lines that are not empty are the content lines. -/
theorem splitNonEmptyLines_eq (text : String) :
    splitNonEmptyLines text = (contentLines isSpace isLineBreak text.toList).map String.ofList := by
  have hlines := contents_linesFrom [] text.toList
  rw [List.splitOnPPrepend_nil_right] at hlines
  rw [splitNonEmptyLines, splitlines, filter_strip, hlines, contentLines]

/-! ## Lines with their ends -/

theorem flatten_linesKeepEnds (line cs : List Char) :
    (linesKeepEnds line cs).flatten = line.reverse ++ cs := by
  fun_induction linesKeepEnds line cs with
  | case1 => rfl
  | case2 => simp
  | case3 line cs ih => simp [ih]
  | case4 line c cs _ _ ih => simp [ih]
  | case5 line c cs _ _ ih => simp [ih]

theorem endedLines_linesKeepEnds (line cs : List Char) (hline : ∀ c ∈ line, isLineBreak c = false) :
    EndedLines isLineBreak (linesKeepEnds line cs) := by
  fun_induction linesKeepEnds line cs with
  | case1 => exact .nil
  | case2 line => exact .last (by simpa using hline)
  | case3 line cs ih =>
    have hcut : ('\n' :: '\r' :: line).reverse = line.reverse ++ ['\r', '\n'] := by simp
    rw [hcut]
    exact .cons (by simpa using hline) (by simp) (List.all_eq_true.mp (by decide))
      (ih (List.forall_mem_nil _))
  | case4 line c cs _ hbreak ih =>
    rw [List.reverse_cons]
    exact .cons (by simpa using hline) (by simp) (by simpa using hbreak) (ih (List.forall_mem_nil _))
  | case5 line c cs _ hbreak ih =>
    refine ih fun x hx => ?_
    rcases List.mem_cons.mp hx with rfl | hx
    · simpa using hbreak
    · exact hline x hx

/-! ## The first line -/

/-- What a payload becomes, given what stands before its first line, the line, and what follows. -/
def rewritten (today payload a s b : List Char) : List Char :=
  match normalizeIsoDateToken (String.ofList s) with
  | none => today ++ '\n' :: payload
  | some canonical => a ++ (canonical.toList ++ b)

/-- A payload is rewritten at its first line, unless it is blank. -/
theorem normalizeFirstLine_spec {payload today before : List Char} {lines : List (List Char)}
    (hlines : EndedLines isLineBreak lines) (hbefore : ∀ c ∈ before, isSpace c)
    (hpayload : payload = before ++ lines.flatten) :
    (∀ c ∈ payload, isSpace c) ∧ normalizeFirstLine payload today lines before = payload ∨
      ∃ a s b, FirstLine isSpace isLineBreak payload a s b ∧
        normalizeFirstLine payload today lines before = rewritten today payload a s b := by
  induction lines generalizing before with
  | nil =>
    left
    rw [hpayload, List.flatten_nil, List.append_nil]
    exact ⟨hbefore, rfl⟩
  | cons raw rest ih =>
    by_cases hblank : trim isSpace raw = []
    · have hrest : EndedLines isLineBreak rest := by
        cases hlines with
        | last => exact .nil
        | cons _ _ _ hrest => exact hrest
      have hraw : ∀ c ∈ before ++ raw, isSpace c := fun c hc =>
        (List.mem_append.mp hc).elim (hbefore c) (trim_eq_nil_iff.mp hblank c)
      rw [normalizeFirstLine, stripChars_eq, if_pos hblank]
      exact ih hrest hraw (by simp [hpayload])
    · right
      have hfirst := hlines.firstLine (fun c => isSpace_of_isLineBreak) hbefore hblank
      rw [← hpayload] at hfirst
      refine ⟨_, _, _, hfirst, ?_⟩
      rw [normalizeFirstLine, stripChars_eq, if_neg hblank, rewritten]
      split
      · simp only [*]
      · simp [*]

theorem normalizeNotePayload_spec (payload : String) (today : Date) :
    (∀ c ∈ payload.toList, isSpace c) ∧ normalizeNotePayload payload today = payload ∨
      ∃ a s b, FirstLine isSpace isLineBreak payload.toList a s b ∧
        (normalizeNotePayload payload today).toList =
          rewritten today.isoformat.toList payload.toList a s b := by
  have hlines := endedLines_linesKeepEnds [] payload.toList (List.forall_mem_nil _)
  have hflat : payload.toList = [] ++ (linesKeepEnds [] payload.toList).flatten :=
    (flatten_linesKeepEnds [] payload.toList).symm
  rw [normalizeNotePayload]
  rcases normalizeFirstLine_spec hlines (List.forall_mem_nil _) hflat with
    ⟨hblank, heq⟩ | ⟨a, s, b, hfirst, heq⟩
  · left
    exact ⟨hblank, by rw [heq, String.ofList_toList]⟩
  · right
    exact ⟨a, s, b, hfirst, by rw [heq, String.toList_ofList]⟩

/-- A canonical date is one line, with nothing blank in it. -/
theorem isoformat_line (d : Date) : Trimmed isSpace d.isoformat.toList ∧
    d.isoformat.toList ≠ [] ∧ ∀ c ∈ d.isoformat.toList, isLineBreak c = false := by
  have hspace : ∀ c ∈ d.isoformat.toList, isSpace c = false := by
    intro c hc
    rw [toList_isoformat, isoChars] at hc
    simp only [List.mem_append, List.mem_cons] at hc
    have hdigit : ∀ {width n : Nat}, c ∈ padded width n → isSpace c = false := fun h => by
      obtain ⟨n, rfl⟩ := mem_padded h
      exact (digitChar_spec n).2.2.1
    rcases hc with h | rfl | h | rfl | h
    · exact hdigit h
    · decide
    · exact hdigit h
    · decide
    · exact hdigit h
  refine ⟨⟨fun c hc => hspace c (List.mem_of_mem_head? hc),
    fun c hc => hspace c (List.mem_of_mem_getLast? hc)⟩, ?_, fun c hc => ?_⟩
  · rw [toList_isoformat, isoChars, padded_cons]
    simp
  · by_contra hbreak
    have := isSpace_of_isLineBreak (eq_true_of_ne_false hbreak)
    simp [hspace c hc] at this

/-- A payload that starts with a canonical date stays as it is. -/
theorem normalizeNotePayload_canonical {payload : String} {a b : List Char} {d : Date}
    (h : FirstLine isSpace isLineBreak payload.toList a d.isoformat.toList b) (today : Date) :
    normalizeNotePayload payload today = payload := by
  obtain ⟨hdate, hne, -⟩ := isoformat_line d
  rcases normalizeNotePayload_spec payload today with ⟨-, heq⟩ | ⟨a', s, b', hfirst, heq⟩
  · exact heq
  · obtain ⟨rfl, rfl, rfl⟩ := h.unique hfirst
    have hcanonical : normalizeIsoDateToken d.isoformat = some d.isoformat :=
      (normalizeIsoDateToken_eq_some_iff hdate).mpr
        ⟨d, ⟨'-', by simp, .inl (toList_isoformat d)⟩, rfl⟩
    rw [← String.toList_inj, heq, rewritten, String.ofList_toList, hcanonical]
    exact h.eq.symm

theorem splitNonEmptyLines_first {payload : String} {a b : List Char} {d : Date}
    (h : FirstLine isSpace isLineBreak payload.toList a d.isoformat.toList b) :
    splitNonEmptyLines payload =
      d.isoformat :: (contentLines isSpace isLineBreak b).map String.ofList := by
  rw [splitNonEmptyLines_eq, h.contentLines, List.map_cons, String.ofList_toList]

/-- The parser reads the date of the first line, and the body from the lines after it. -/
theorem parseNote_of_first {payload : String} {a b : List Char} {d : Date}
    (h : FirstLine isSpace isLineBreak payload.toList a d.isoformat.toList b) :
    parseNote payload = some ⟨d, joinLines ((contentLines isSpace isLineBreak b).map String.ofList),
      d.isoformat⟩ := by
  rw [parseNote, splitNonEmptyLines_first h]
  simp only [fromisoformat_isoformat, Option.map_some]

/-- A text names at most one date. -/
theorem NamesDate.unique {cs : List Char} {d d' : Date} (hcs : Trimmed isSpace cs)
    (h : NamesDate cs d) (h' : NamesDate cs d') : d = d' := by
  have htoken : Trimmed isSpace (String.ofList cs).toList := by rwa [String.toList_ofList]
  have hread : ∀ {d : Date}, NamesDate cs d →
      normalizeIsoDateToken (String.ofList cs) = some d.isoformat := fun hd =>
    (normalizeIsoDateToken_eq_some_iff htoken).mpr ⟨_, by rwa [String.toList_ofList], rfl⟩
  have hiso : d.isoformat = d'.isoformat := Option.some.inj ((hread h).symm.trans (hread h'))
  have hdate := fromisoformat_isoformat d
  rw [hiso, fromisoformat_isoformat] at hdate
  exact (Option.some.inj hdate).symm

/-- What parsing a normalized payload gives : the date its first line names, or else `today`,
before the lines that remain. -/
structure DefaultedNote (first : String) (rest : List String) (today : Date) (note : ParsedNote) :
    Prop where
  named : ∀ d, NamesDate first.toList d → note.noteDate = d ∧ note.body = joinLines rest
  unnamed : (∀ d, ¬ NamesDate first.toList d) →
    note.noteDate = today ∧ note.body = joinLines (first :: rest)

/-- What `/note` makes of a payload before it is parsed. -/
structure NormalizedNote (payload normalized : String) (today : Date) : Prop where
  parses : strip payload ≠ "" → ∃ first rest note, splitNonEmptyLines payload = first :: rest ∧
    parseNote normalized = some note ∧ DefaultedNote first rest today note
  blank : strip payload = "" → normalized = payload ∧ parseNote normalized = none
  again : ∀ later, normalizeNotePayload normalized later = normalized

/-- The payload with the date of the message on a line of its own. -/
theorem firstLine_today (payload : List Char) (today : Date) :
    FirstLine isSpace isLineBreak (today.isoformat.toList ++ '\n' :: payload) []
      today.isoformat.toList ('\n' :: payload) where
  blank := List.forall_mem_nil _
  trimmed := (isoformat_line today).1
  ne_nil := (isoformat_line today).2.1
  unbroken := (isoformat_line today).2.2
  after := ⟨[], '\n' :: payload, rfl, List.forall_mem_nil _, by simp [isLineBreak]⟩
  eq := rfl

/-- What becomes of a payload : it is blank and stays, its first line names a date and is rewritten
to the canonical form, or its first line names none and the date of the message is put before it. -/
inductive Rewriting (payload : String) (today : Date) : String → Prop
  | blank (hblank : ∀ c ∈ payload.toList, isSpace c) : Rewriting payload today payload
  | named {first normalized : String} {rest : List String} {d : Date} {a b : List Char}
      (hlines : splitNonEmptyLines payload = first :: rest)
      (hfirst : FirstLine isSpace isLineBreak normalized.toList a d.isoformat.toList b)
      (hnames : NamesDate first.toList d) (htoken : Trimmed isSpace first.toList)
      (hrest : (contentLines isSpace isLineBreak b).map String.ofList = rest) :
      Rewriting payload today normalized
  | dated {first normalized : String} {rest : List String} {a b : List Char}
      (hlines : splitNonEmptyLines payload = first :: rest)
      (hfirst : FirstLine isSpace isLineBreak normalized.toList a today.isoformat.toList b)
      (hnames : ∀ d, ¬ NamesDate first.toList d)
      (hrest : (contentLines isSpace isLineBreak b).map String.ofList = first :: rest) :
      Rewriting payload today normalized

theorem rewriting (payload : String) (today : Date) :
    Rewriting payload today (normalizeNotePayload payload today) := by
  rcases normalizeNotePayload_spec payload today with ⟨hblank, heq⟩ | ⟨a, s, b, hfirst, heq⟩
  · rw [heq]
    exact .blank hblank
  · have hlines : splitNonEmptyLines payload =
        String.ofList s :: (contentLines isSpace isLineBreak b).map String.ofList := by
      rw [splitNonEmptyLines_eq, hfirst.contentLines, List.map_cons]
    have htoken : Trimmed isSpace (String.ofList s).toList := by
      rw [String.toList_ofList]
      exact hfirst.trimmed
    cases hcanonical : normalizeIsoDateToken (String.ofList s) with
    | some canonical =>
      obtain ⟨d, hnames, rfl⟩ := (normalizeIsoDateToken_eq_some_iff htoken).mp hcanonical
      obtain ⟨htrimmed, hne, hunbroken⟩ := isoformat_line d
      have hnormal := hfirst.replace htrimmed hne hunbroken
      rw [rewritten, hcanonical] at heq
      change _ = a ++ (d.isoformat.toList ++ b) at heq
      rw [← heq] at hnormal
      exact .named hlines hnormal hnames htoken rfl
    | none =>
      have hnames : ∀ d, ¬ NamesDate (String.ofList s).toList d := fun d hd => by
        have := (normalizeIsoDateToken_eq_some_iff htoken).mpr ⟨d, hd, rfl⟩
        rw [hcanonical] at this
        cases this
      have hnormal := firstLine_today payload.toList today
      rw [rewritten, hcanonical] at heq
      change _ = today.isoformat.toList ++ '\n' :: payload.toList at heq
      rw [← heq] at hnormal
      refine .dated hlines hnormal hnames ?_
      have hbreak : contentLines isSpace isLineBreak ('\n' :: payload.toList) =
          contentLines isSpace isLineBreak payload.toList :=
        contentLines_blank_append (a := ['\n']) (List.all_eq_true.mp (by decide))
      rw [← hlines, splitNonEmptyLines_eq, hbreak]

theorem splitNonEmptyLines_blank {payload : String} (h : ∀ c ∈ payload.toList, isSpace c) :
    splitNonEmptyLines payload = [] := by
  rw [splitNonEmptyLines_eq, contentLines_eq_nil h]
  rfl

/-- Normalizing again changes nothing, also later. -/
theorem Rewriting.again {payload normalized : String} {today : Date}
    (h : Rewriting payload today normalized) (later : Date) :
    normalizeNotePayload normalized later = normalized := by
  cases h with
  | blank hblank =>
    rcases normalizeNotePayload_spec payload later with ⟨-, hlater⟩ | ⟨a, s, b, hfirst, -⟩
    · exact hlater
    · exact absurd hblank hfirst.not_blank
  | named _ hfirst => exact normalizeNotePayload_canonical hfirst later
  | dated _ hfirst => exact normalizeNotePayload_canonical hfirst later

/-- Every payload is normalized so that it parses, with its own date or the date of the message,
unless it is blank. -/
theorem normalizedNote (payload : String) (today : Date) :
    NormalizedNote payload (normalizeNotePayload payload today) today := by
  have h := rewriting payload today
  refine ⟨fun hne => ?_, fun hempty => ?_, h.again⟩
  · generalize normalizeNotePayload payload today = normalized at h
    cases h with
    | blank hblank => exact absurd (strip_eq_empty_iff.mpr hblank) hne
    | named hlines hfirst hnames htoken hrest =>
      refine ⟨_, _, _, hlines, parseNote_of_first hfirst, ?_, fun hnot => absurd hnames (hnot _)⟩
      exact fun d hd => ⟨hnames.unique htoken hd, congrArg joinLines hrest⟩
    | dated hlines hfirst hnames hrest =>
      exact ⟨_, _, _, hlines, parseNote_of_first hfirst, fun d hd => absurd hd (hnames d),
        fun _ => ⟨rfl, congrArg joinLines hrest⟩⟩
  · have hblank := strip_eq_empty_iff.mp hempty
    have hlines := splitNonEmptyLines_blank hblank
    generalize normalizeNotePayload payload today = normalized at h
    cases h with
    | blank => exact ⟨rfl, by rw [parseNote, hlines]⟩
    | named hfound => simp [hlines] at hfound
    | dated hfound => simp [hlines] at hfound

/-- The stripped lines `ls'` are the lines `ls`, the first of them rewritten to a canonical date or
a date line put before them. -/
inductive KeptLines (today : Date) : List String → List String → Prop
  | same (ls : List String) : KeptLines today ls ls
  | rewritten {first : String} {rest : List String} {d : Date} (hnames : NamesDate first.toList d) :
      KeptLines today (first :: rest) (d.isoformat :: rest)
  | dated (ls : List String) : KeptLines today ls (today.isoformat :: ls)

/-- Normalizing a payload loses no line. -/
theorem keptLines (payload : String) (today : Date) :
    KeptLines today (splitNonEmptyLines payload)
      (splitNonEmptyLines (normalizeNotePayload payload today)) := by
  have h := rewriting payload today
  generalize normalizeNotePayload payload today = normalized at h ⊢
  cases h with
  | blank hblank => exact .same _
  | named hlines hfirst hnames htoken hrest =>
    rw [splitNonEmptyLines_first hfirst, hlines, hrest]
    exact .rewritten hnames
  | dated hlines hfirst hnames hrest =>
    rw [splitNonEmptyLines_first hfirst, hlines, hrest]
    exact .dated _

/-! ## The parser alone -/

/-- The first line of a payload, stripped, where it has one. -/
def HasFirstLine (payload line : String) : Prop := ∃ rest, splitNonEmptyLines payload = line :: rest

theorem HasFirstLine.trimmed {payload line : String} (h : HasFirstLine payload line) :
    Trimmed isSpace line.toList := by
  obtain ⟨rest, h⟩ := h
  have hmem : line ∈ splitNonEmptyLines payload := h ▸ List.mem_cons_self
  rw [splitNonEmptyLines_eq] at hmem
  obtain ⟨l, hl, rfl⟩ := List.mem_map.mp hmem
  rw [String.toList_ofList]
  exact (trimmed_of_mem_contents hl).2

theorem parseNote_isSome_iff (payload : String) :
    (parseNote payload).isSome ↔ ∃ line, HasFirstLine payload line ∧ (Date.fromisoformat line).isSome := by
  unfold parseNote HasFirstLine
  split
  · rename_i h
    simp [h]
  · rename_i line rest h
    simp [h]

/-- The parser and the whitelist of `/note` agree on what a canonical date line is. -/
structure StrictDate (payload : String) : Prop where
  canonical : (parseNote payload).isSome ↔ ∃ line, HasFirstLine payload line ∧
    ∃ d : Date, line = d.isoformat
  unchanged : (parseNote payload).isSome ↔ ∃ line, HasFirstLine payload line ∧
    normalizeIsoDateToken line = some line

/-- The whitelist leaves exactly the canonical dates unchanged. -/
theorem normalizeIsoDateToken_eq_self_iff {line : String} (h : Trimmed isSpace line.toList) :
    normalizeIsoDateToken line = some line ↔ ∃ d : Date, line = d.isoformat := by
  rw [normalizeIsoDateToken_eq_some_iff h]
  constructor
  · rintro ⟨d, -, hline⟩
    exact ⟨d, hline⟩
  · rintro ⟨d, rfl⟩
    exact ⟨d, ⟨'-', by simp, .inl (toList_isoformat d)⟩, rfl⟩

/-- The parser takes exactly the canonical dates, unless the first line is one of the wider forms
of `date.fromisoformat`. -/
theorem parseNote_strict_iff (payload : String) :
    StrictDate payload ↔ ¬ ∃ line d, HasFirstLine payload line ∧ WideDate line.toList d := by
  constructor
  · rintro hstrict ⟨line, d, hline, hwide⟩
    have hsome : (parseNote payload).isSome := (parseNote_isSome_iff payload).mpr
      ⟨line, hline, by simp [fromisoformat_eq_some_iff.mpr (.inr hwide)]⟩
    obtain ⟨line', ⟨rest', h'⟩, d', rfl⟩ := hstrict.canonical.mp hsome
    obtain ⟨rest, h⟩ := hline
    rw [h] at h'
    obtain rfl := (List.cons.inj h').1
    exact hwide.ne_isoChars _ _ _ (toList_isoformat d')
  · intro hnarrow
    have hcanonical : (parseNote payload).isSome ↔ ∃ line, HasFirstLine payload line ∧
        ∃ d : Date, line = d.isoformat := by
      rw [parseNote_isSome_iff]
      refine exists_congr fun line => and_congr_right fun hline => ?_
      constructor
      · intro hsome
        obtain ⟨d, hd⟩ := Option.isSome_iff_exists.mp hsome
        rcases fromisoformat_eq_some_iff.mp hd with hiso | hwide
        · exact ⟨d, hiso⟩
        · exact absurd ⟨line, d, hline, hwide⟩ hnarrow
      · rintro ⟨d, rfl⟩
        simp [fromisoformat_isoformat]
    refine ⟨hcanonical, hcanonical.trans (exists_congr fun line => and_congr_right fun hline => ?_)⟩
    exact (normalizeIsoDateToken_eq_self_iff hline.trimmed).symm

/-- A date without separators parses, though it is not canonical. -/
theorem parseNote_compact : (parseNote "20260519").isSome ∧ ¬ StrictDate "20260519" := by
  have hsome : (parseNote "20260519").isSome := by decide
  refine ⟨hsome, fun hstrict => ?_⟩
  obtain ⟨line, ⟨rest, h⟩, hsame⟩ := hstrict.unchanged.mp hsome
  obtain rfl : line = "20260519" := by
    have hlines : splitNonEmptyLines "20260519" = ["20260519"] := by decide
    rw [hlines] at h
    exact (List.cons.inj h).1.symm
  exact absurd hsame (by decide)

end DiaryMemory
