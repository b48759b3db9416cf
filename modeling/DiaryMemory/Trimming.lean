import Mathlib.Data.List.DropRight
import Mathlib.Data.List.Infix
import Mathlib.Data.List.TakeWhile

/-!
# Trimming lists and cutting them into lines

`trim p` drops the leading and the trailing elements that `p` selects. What is left is
`Trimmed p`, and is the only trimmed part a list can be cut down to by dropping selected
elements at its ends (`trim_append`).

`contentLines p q` cuts a list at the elements that `q` selects, trims the pieces and
keeps those that are not empty. Where `q` selects only what `p` does, blank elements
before the lines do not count (`contentLines_blank_append`).
-/

namespace DiaryMemory.Trimming

variable {α : Type*} {p q : α → Bool} {l a b m : List α}

/-- Drop the elements `p` selects at both ends. -/
def trim (p : α → Bool) (l : List α) : List α := (l.dropWhile p).rdropWhile p

/-- Neither end of `l` is an element that `p` selects. -/
structure Trimmed (p : α → Bool) (l : List α) : Prop where
  head : ∀ x ∈ l.head?, p x = false
  last : ∀ x ∈ l.getLast?, p x = false

theorem dropWhile_of_head (h : ∀ x ∈ l.head?, p x = false) : l.dropWhile p = l := by
  cases l with
  | nil => rfl
  | cons x l => rw [List.dropWhile_cons_of_neg (by simp [h x rfl])]

theorem head_dropWhile : ∀ x ∈ (l.dropWhile p).head?, p x = false := by
  intro x hx
  have hne : l.dropWhile p ≠ [] := by
    intro h
    rw [h] at hx
    cases hx
  rw [List.head?_eq_some_head hne] at hx
  cases hx
  simpa using List.head_dropWhile_not p hne

/-- Selected elements, up to one that is not. -/
theorem takeWhile_append_stop (ha : ∀ x ∈ a, p x) (hb : ∀ x ∈ b.head?, p x = false) :
    (a ++ b).takeWhile p = a := by
  cases b with
  | nil => simpa using ha
  | cons x b =>
    rw [List.takeWhile_append_of_pos ha, List.takeWhile_cons_of_neg (by simp [hb x rfl]),
      List.append_nil]

theorem dropWhile_append_stop (ha : ∀ x ∈ a, p x) (hb : ∀ x ∈ b.head?, p x = false) :
    (a ++ b).dropWhile p = b := by
  rw [List.dropWhile_append_of_pos ha, dropWhile_of_head hb]

theorem rdropWhile_of_last (h : ∀ x ∈ l.getLast?, p x = false) : l.rdropWhile p = l := by
  rw [List.rdropWhile_eq_self_iff]
  intro hl
  simp [h _ (List.getLast?_eq_some_getLast hl)]

theorem last_rdropWhile : ∀ x ∈ (l.rdropWhile p).getLast?, p x = false := by
  intro x hx
  have hne : l.rdropWhile p ≠ [] := by
    intro h
    rw [h] at hx
    cases hx
  rw [List.getLast?_eq_some_getLast hne] at hx
  cases hx
  simpa using List.rdropWhile_last_not p l hne

/-- Selected elements at the end are dropped. -/
theorem rdropWhile_append_of_pos (hb : ∀ x ∈ b, p x) : (l ++ b).rdropWhile p = l.rdropWhile p := by
  rw [List.rdropWhile, List.rdropWhile, List.reverse_append,
    List.dropWhile_append_of_pos (by simpa using hb)]

theorem exists_tail (p : α → Bool) (l : List α) : ∃ b, (∀ x ∈ b, p x) ∧ l = l.rdropWhile p ++ b :=
  ⟨l.rtakeWhile p, fun _ => List.mem_rtakeWhile_imp, List.rdropWhile_append_rtakeWhile.symm⟩

/-- A prefix keeps the head, as long as it is not empty. -/
theorem head?_of_prefixed (h : a <+: l) (hne : a ≠ []) : a.head? = l.head? := by
  obtain ⟨t, rfl⟩ := h
  rw [List.head?_append_of_ne_nil _ hne]

theorem trimmed_trim : Trimmed p (trim p l) where
  head := by
    intro x hx
    by_cases hne : trim p l = []
    · rw [hne] at hx
      cases hx
    · have hpre : trim p l <+: l.dropWhile p := List.rdropWhile_prefix p _
      exact head_dropWhile x (head?_of_prefixed hpre hne ▸ hx)
  last := last_rdropWhile

theorem trim_of_trimmed (h : Trimmed p l) : trim p l = l := by
  rw [trim, dropWhile_of_head h.head, rdropWhile_of_last h.last]

/-- A list is trimmed by dropping selected elements at both ends. -/
theorem exists_trim (p : α → Bool) (l : List α) :
    ∃ a b, (∀ x ∈ a, p x) ∧ (∀ x ∈ b, p x) ∧ l = a ++ trim p l ++ b := by
  refine ⟨l.takeWhile p, (l.dropWhile p).rtakeWhile p, fun x => List.mem_takeWhile_imp,
    fun x => List.mem_rtakeWhile_imp, ?_⟩
  rw [trim, List.append_assoc, List.rdropWhile_append_rtakeWhile, List.takeWhile_append_dropWhile]

/-- Whatever trimmed list remains when selected elements are dropped, it is `trim`. -/
theorem trim_append (ha : ∀ x ∈ a, p x) (hb : ∀ x ∈ b, p x) : trim p (a ++ l ++ b) = trim p l := by
  rw [trim, trim, List.append_assoc, List.dropWhile_append_of_pos ha, List.dropWhile_append]
  by_cases hl : l.dropWhile p = []
  · rw [hl]
    simpa using fun x hx => hb x (List.dropWhile_subset p hx)
  · rw [if_neg (by simpa using hl), rdropWhile_append_of_pos hb]

theorem trim_append_left (ha : ∀ x ∈ a, p x) : trim p (a ++ l) = trim p l := by
  simpa using trim_append (b := []) ha (List.forall_mem_nil _)

theorem trim_append_right (hb : ∀ x ∈ b, p x) : trim p (l ++ b) = trim p l := by
  simpa using trim_append (a := []) (List.forall_mem_nil _) hb

theorem trim_eq_nil_iff : trim p l = [] ↔ ∀ x ∈ l, p x := by
  rw [trim, List.rdropWhile_eq_nil_iff]
  constructor
  · intro h x hx
    rw [← List.takeWhile_append_dropWhile (p := p) (l := l)] at hx
    exact (List.mem_append.mp hx).elim List.mem_takeWhile_imp (h x)
  · exact fun h x hx => h x (List.dropWhile_subset p hx)

theorem mem_of_mem_trim {x : α} (h : x ∈ trim p l) : x ∈ l :=
  List.dropWhile_subset p ((List.rdropWhile_prefix p _).subset h)

/-! ## Lines -/

/-- The pieces, trimmed, without the ones that are blank. -/
def contents (p : α → Bool) (ls : List (List α)) : List (List α) :=
  (ls.map (trim p)).filter fun m => !m.isEmpty

/-- The pieces between the elements `q` selects, trimmed, without the ones that are blank. -/
def contentLines (p q : α → Bool) (l : List α) : List (List α) := contents p (l.splitOnP q)

theorem contents_append (ls ms : List (List α)) :
    contents p (ls ++ ms) = contents p ls ++ contents p ms := by
  simp [contents]

theorem contents_cons_blank (hm : ∀ x ∈ m, p x) (ls : List (List α)) :
    contents p (m :: ls) = contents p ls := by
  simp [contents, trim_eq_nil_iff.mpr hm]

theorem contents_singleton (hne : trim p m ≠ []) : contents p [m] = [trim p m] := by
  simp [contents, hne]

theorem trimmed_of_mem_contents {ls : List (List α)} (h : m ∈ contents p ls) :
    m ≠ [] ∧ Trimmed p m := by
  obtain ⟨hm, hne⟩ := List.mem_filter.mp h
  obtain ⟨m', -, rfl⟩ := List.mem_map.mp hm
  exact ⟨by simpa using hne, trimmed_trim⟩

theorem contentLines_append_cons {x : α} (hx : q x) :
    contentLines p q (a ++ x :: b) = contentLines p q a ++ contentLines p q b := by
  rw [contentLines, List.splitOnP_append_cons a b hx, contents_append]
  rfl

/-- What is blank before a text does not show in its lines. -/
theorem contentLines_blank_append (ha : ∀ x ∈ a, p x) :
    contentLines p q (a ++ l) = contentLines p q l := by
  induction a with
  | nil => rfl
  | cons x a ih =>
    obtain ⟨hx, ha⟩ := List.forall_mem_cons.mp ha
    rw [List.cons_append, ← ih ha, contentLines, List.splitOnP_cons_eq_if_modifyHead]
    split
    · exact contents_cons_blank (List.forall_mem_nil _) _
    · obtain ⟨m, ms, hms⟩ := List.exists_cons_of_ne_nil (List.splitOnP_ne_nil q (a ++ l))
      have hm : trim p (x :: m) = trim p m := trim_append_left (a := [x]) (by simpa using hx)
      rw [contentLines, hms, List.modifyHead_cons]
      simp [contents, hm]

theorem contentLines_eq_nil (ha : ∀ x ∈ l, p x) : contentLines p q l = [] := by
  have := contentLines_blank_append (q := q) (l := []) ha
  simpa [contentLines, contents, trim] using this

theorem contentLines_unbroken (hm : ∀ x ∈ m, q x = false) (hne : trim p m ≠ []) :
    contentLines p q m = [trim p m] := by
  rw [contentLines, List.splitOnP_eq_singleton hm, contents_singleton hne]

/-- `l` is blank up to its first line `s`, of which only blank elements follow; `b` is what
comes after `s`. -/
structure FirstLine (p q : α → Bool) (l a s b : List α) : Prop where
  blank : ∀ x ∈ a, p x
  trimmed : Trimmed p s
  ne_nil : s ≠ []
  unbroken : ∀ x ∈ s, q x = false
  after : ∃ t r, b = t ++ r ∧ (∀ x ∈ t, p x ∧ q x = false) ∧ ∀ x ∈ r.head?, q x
  eq : l = a ++ (s ++ b)

variable {s s' a' b' : List α}

theorem FirstLine.contentLines (h : FirstLine p q l a s b) :
    contentLines p q l = s :: contentLines p q b := by
  obtain ⟨t, r, rfl, ht, hr⟩ := h.after
  have hblank : ∀ x ∈ t, p x := fun x hx => (ht x hx).1
  have htrim : trim p (s ++ t) = s := by rw [trim_append_right hblank, trim_of_trimmed h.trimmed]
  have hline : Trimming.contentLines p q (s ++ t) = [s] := by
    rw [contentLines_unbroken, htrim]
    · intro x hx
      exact (List.mem_append.mp hx).elim (h.unbroken x) fun hx => (ht x hx).2
    · rw [htrim]
      exact h.ne_nil
  rw [h.eq, contentLines_blank_append h.blank, contentLines_blank_append hblank, ← List.append_assoc]
  cases r with
  | nil => rw [List.append_nil, hline, contentLines_eq_nil (List.forall_mem_nil _)]
  | cons x r =>
    have hx : q x := hr x rfl
    rw [contentLines_append_cons hx, hline, ← List.nil_append (x :: r), contentLines_append_cons hx,
      contentLines_eq_nil (List.forall_mem_nil _)]
    rfl

theorem FirstLine.not_blank (h : FirstLine p q l a s b) : ¬ ∀ x ∈ l, p x := by
  intro hblank
  have hlines := h.contentLines
  rw [contentLines_eq_nil hblank] at hlines
  cases hlines

/-- Another line in the place of the first. -/
theorem FirstLine.replace (h : FirstLine p q l a s b) (hs : Trimmed p s') (hne : s' ≠ [])
    (hunbroken : ∀ x ∈ s', q x = false) : FirstLine p q (a ++ (s' ++ b)) a s' b :=
  ⟨h.blank, hs, hne, hunbroken, h.after, rfl⟩

theorem takeWhile_append_trimmed (ha : ∀ x ∈ a, p x) (hs : Trimmed p s) (hne : s ≠ []) :
    (a ++ (s ++ b)).takeWhile p = a :=
  takeWhile_append_stop ha (by simpa [List.head?_append_of_ne_nil s hne] using hs.head)

/-- A list has at most one first line. -/
theorem FirstLine.unique (h : FirstLine p q l a s b) (h' : FirstLine p q l a' s' b') :
    a = a' ∧ s = s' ∧ b = b' := by
  have htake : ∀ {a s b : List α}, FirstLine p q l a s b → l.takeWhile p = a := fun h => by
    rw [h.eq, takeWhile_append_trimmed h.blank h.trimmed h.ne_nil]
  obtain rfl : a = a' := (htake h).symm.trans (htake h')
  obtain rfl : s = s' := by
    have hl := h.contentLines.symm.trans h'.contentLines
    exact (List.cons.inj hl).1
  have hb := h.eq.symm.trans h'.eq
  exact ⟨rfl, rfl, List.append_cancel_left (List.append_cancel_left hb)⟩

/-- The lines of a text with what ends them : an end is made of breaks, and only the last line
may have none. -/
inductive EndedLines (q : α → Bool) : List (List α) → Prop
  | nil : EndedLines q []
  | last {m : List α} : (∀ x ∈ m, q x = false) → EndedLines q [m]
  | cons {m e : List α} {ls : List (List α)} : (∀ x ∈ m, q x = false) → e ≠ [] →
      (∀ x ∈ e, q x) → EndedLines q ls → EndedLines q ((m ++ e) :: ls)

/-- A line that is not blank, with what ends it, after nothing but blank lines. -/
theorem firstLine_of_line {m e r : List α} (hqp : ∀ x, q x → p x) (ha : ∀ x ∈ a, p x)
    (hm : ∀ x ∈ m, q x = false) (he : ∀ x ∈ e, q x) (her : e = [] → r = [])
    (hne : trim p (m ++ e) ≠ []) :
    FirstLine p q (a ++ (m ++ e ++ r)) (a ++ (m ++ e).takeWhile p) (trim p (m ++ e))
      ((m ++ e).drop (((m ++ e).takeWhile p).length + (trim p (m ++ e)).length) ++ r) := by
  have htrim : trim p (m ++ e) = trim p m := trim_append_right fun x hx => hqp x (he x hx)
  rw [htrim] at hne ⊢
  obtain ⟨c, d, hc, hd, hcd⟩ := exists_trim p m
  have hline : m ++ e = c ++ (trim p m ++ (d ++ e)) := by
    conv_lhs => rw [hcd]
    simp
  have htake : (m ++ e).takeWhile p = c := by
    rw [hline, takeWhile_append_trimmed hc trimmed_trim hne]
  have hdrop : (m ++ e).drop (c.length + (trim p m).length) = d ++ e := by
    rw [hline, ← List.append_assoc, List.drop_left' (by simp)]
  rw [htake, hdrop]
  refine ⟨?_, trimmed_trim, hne, fun x hx => hm x (mem_of_mem_trim hx), ⟨d, e ++ r, by simp, ?_, ?_⟩, ?_⟩
  · intro x hx
    exact (List.mem_append.mp hx).elim (ha x) (hc x)
  · intro x hx
    refine ⟨hd x hx, hm x ?_⟩
    rw [hcd]
    simp [hx]
  · cases e with
    | nil => simp [her rfl]
    | cons y e => simpa using he y List.mem_cons_self
  · rw [hline]
    simp

/-- The first of some lines, when it is not blank. -/
theorem EndedLines.firstLine {ls : List (List α)} (h : EndedLines q (l :: ls))
    (hqp : ∀ x, q x → p x) (ha : ∀ x ∈ a, p x) (hne : trim p l ≠ []) :
    FirstLine p q (a ++ (l :: ls).flatten) (a ++ l.takeWhile p) (trim p l)
      (l.drop ((l.takeWhile p).length + (trim p l).length) ++ ls.flatten) := by
  cases h with
  | last hm =>
    simpa using firstLine_of_line (e := []) (r := []) hqp ha hm (List.forall_mem_nil _)
      (fun _ => rfl) (by simpa using hne)
  | cons hm he hbreak _ =>
    exact firstLine_of_line hqp ha hm hbreak (fun h => absurd h he) hne

end DiaryMemory.Trimming
