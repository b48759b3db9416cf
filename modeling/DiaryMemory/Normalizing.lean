import DiaryMemory.QueryService
import DiaryMemory.Texts

/-!
# Normalized questions

`normalizeQuery` strips white space, then terminal punctuation, then white space again,
once each. What comes out is a prefix of the stripped question without white space at
its ends. It may still end in punctuation: exactly when the stripped question has a
layered tail, punctuation followed by white space and more punctuation.
-/

namespace DiaryMemory

open PyText Trimming

/-- The terminal punctuation `normalizeQuery` removes. -/
def isTerminal (c : Char) : Bool := "?.!,;:".toList.contains c

/-- The text ends in punctuation, white space and again punctuation. -/
def LayeredTail (text : String) : Prop :=
  ∃ (x : List Char) (c : Char) (ws ps : List Char), text.toList = x ++ c :: (ws ++ ps) ∧
    isTerminal c ∧ ws ≠ [] ∧ (∀ y ∈ ws, isSpace y) ∧ ps ≠ [] ∧ ∀ y ∈ ps, isTerminal y

/-- The query `q` is a payload's normal form. -/
structure NormalForm (payload q : String) : Prop where
  trimmed : Trimmed isSpace q.toList
  last : ∀ c ∈ q.toList.getLast?, isTerminal c = false
  isPrefix : q.toList <+: (strip payload).toList
  empty_iff : q = "" ↔ ∀ c ∈ payload.toList, isSpace c ∨ isTerminal c
  again : normalizeQuery q = q

theorem isTerminal_of_isSpace {c : Char} (h : isSpace c) : isTerminal c = false := by
  by_contra hc
  have hmem : c ∈ "?.!,;:".toList := List.contains_iff_mem.mp (eq_true_of_ne_false hc)
  have hall : ("?.!,;:".toList.all fun c => !isSpace c) = true := by decide
  have hc := List.all_eq_true.mp hall c hmem
  simp [h] at hc

/-- The characters of the normalized query : two passes at the end of the stripped text. -/
theorem toList_normalizeQuery (payload : String) :
    (normalizeQuery payload).toList =
      ((strip payload).toList.rdropWhile isTerminal).rdropWhile isSpace := by
  rw [normalizeQuery, toList_strip, toList_rstripOf, trim, dropWhile_of_head]
  · rfl
  · intro c hc
    rw [toList_strip] at hc
    have hpre := List.rdropWhile_prefix isTerminal (trim isSpace payload.toList)
    have hne : (trim isSpace payload.toList).rdropWhile isTerminal ≠ [] := by
      intro hnil
      rw [show ((trim isSpace payload.toList).rdropWhile
        fun c => "?.!,;:".toList.contains c) = [] from hnil] at hc
      cases hc
    exact trimmed_trim.head c (head?_of_prefixed hpre hne ▸ hc)

theorem normalizeQuery_prefixed (payload : String) :
    (normalizeQuery payload).toList <+: (strip payload).toList := by
  rw [toList_normalizeQuery]
  exact (List.rdropWhile_prefix _ _).trans (List.rdropWhile_prefix _ _)

theorem normalizeQuery_trimmed (payload : String) :
    Trimmed isSpace (normalizeQuery payload).toList := by
  rw [normalizeQuery, toList_strip]
  exact trimmed_trim

/-- A layered tail keeps its inner punctuation. -/
theorem LayeredTail.getLast? {payload : String} (h : LayeredTail (strip payload)) :
    ∃ c ∈ (normalizeQuery payload).toList.getLast?, isTerminal c := by
  obtain ⟨x, c, ws, ps, heq, hc, hne, hws, -, hps⟩ := h
  have hinner : (x ++ c :: ws).rdropWhile isTerminal = x ++ c :: ws := by
    refine rdropWhile_of_last fun y hy => isTerminal_of_isSpace (hws y ?_)
    rw [List.getLast?_append_of_ne_nil _ (List.cons_ne_nil c ws), List.getLast?_cons,
      List.getLast?_eq_some_getLast hne] at hy
    cases hy
    exact List.getLast_mem hne
  have hnot : isSpace c = false := by
    by_contra h
    exact absurd hc (by simp [isTerminal_of_isSpace (eq_true_of_ne_false h)])
  have hnormal : (normalizeQuery payload).toList = x ++ [c] := by
    rw [toList_normalizeQuery, heq, ← List.cons_append, ← List.append_assoc,
      rdropWhile_append_of_pos hps, hinner, List.append_cons, rdropWhile_append_of_pos hws,
      List.rdropWhile_concat_neg _ _ _ (by simp [hnot])]
  exact ⟨c, by simp [hnormal], hc⟩

/-- Punctuation at the end of the normalized query is left from a layered tail. -/
theorem layeredTail_of_last {payload : String} {c : Char}
    (hlast : c ∈ (normalizeQuery payload).toList.getLast?) (hc : isTerminal c) :
    LayeredTail (strip payload) := by
  obtain ⟨x, hx⟩ : ∃ x, (normalizeQuery payload).toList = x ++ [c] :=
    List.getLast?_eq_some_iff.mp hlast
  have htrimmed : Trimmed isSpace (strip payload).toList := by
    rw [toList_strip]
    exact trimmed_trim
  rw [toList_normalizeQuery] at hx
  unfold LayeredTail
  generalize (strip payload).toList = s at hx htrimmed ⊢
  obtain ⟨ps, hps, hs⟩ := exists_tail isTerminal s
  obtain ⟨ws, hws, hinner⟩ := exists_tail isSpace (s.rdropWhile isTerminal)
  rw [hx] at hinner
  have hlayer : ws ≠ [] := by
    -- with no white space after it, the first pass would have dropped `c`
    rintro rfl
    have hkept := last_rdropWhile c (p := isTerminal) (l := s) (by simp [hinner])
    simp [hkept] at hc
  rw [hinner] at hs
  refine ⟨x, c, ws, ps, by simpa using hs, hc, hlayer, hws, ?_, hps⟩
  -- with no punctuation after it, the stripped text would end in white space
  rintro rfl
  have hlast := htrimmed.last (ws.getLast hlayer) (by
    rw [hs, List.append_nil, List.getLast?_append_of_ne_nil _ hlayer]
    exact List.getLast?_eq_some_getLast hlayer)
  simp [hws _ (List.getLast_mem hlayer)] at hlast

/-- The normalized query ends in punctuation exactly after a layered tail. -/
theorem last_normalizeQuery_iff (payload : String) :
    (∀ c ∈ (normalizeQuery payload).toList.getLast?, isTerminal c = false) ↔
      ¬ LayeredTail (strip payload) := by
  constructor
  · intro h hlayer
    obtain ⟨c, hc, hterm⟩ := hlayer.getLast?
    simp [h c hc] at hterm
  · intro h c hc
    by_contra hterm
    exact h (layeredTail_of_last hc (eq_true_of_ne_false hterm))

/-- Without white space and punctuation at its end, a normalized query is its own normal form. -/
theorem normalizeQuery_again {payload : String}
    (hlast : ∀ c ∈ (normalizeQuery payload).toList.getLast?, isTerminal c = false) :
    normalizeQuery (normalizeQuery payload) = normalizeQuery payload := by
  have htrimmed := normalizeQuery_trimmed payload
  rw [← String.toList_inj, toList_normalizeQuery, strip_eq_self_iff.mpr htrimmed,
    rdropWhile_of_last hlast, rdropWhile_of_last htrimmed.last]

/-- The normalized query is empty where the payload has nothing but white space and punctuation. -/
theorem normalizeQuery_empty_iff {payload : String}
    (hlast : ∀ c ∈ (normalizeQuery payload).toList.getLast?, isTerminal c = false) :
    normalizeQuery payload = "" ↔ ∀ c ∈ payload.toList, isSpace c ∨ isTerminal c := by
  have htrimmed := normalizeQuery_trimmed payload
  constructor
  · intro hempty c hc
    have hnil := toList_normalizeQuery payload
    rw [hempty, toList_strip] at hnil
    obtain ⟨a, b, ha, hb, hab⟩ := exists_trim isSpace payload.toList
    obtain ⟨ps, hps, hs⟩ := exists_tail isTerminal (trim isSpace payload.toList)
    obtain ⟨ws, hws, hinner⟩ := exists_tail isSpace ((trim isSpace payload.toList).rdropWhile isTerminal)
    rw [← hnil] at hinner
    rw [hab, hs, hinner] at hc
    simp only [List.mem_append] at hc
    rcases hc with (hc | (hc | hc) | hc) | hc
    · exact .inl (ha c hc)
    · cases hc
    · exact .inl (hws c hc)
    · exact .inr (hps c hc)
    · exact .inl (hb c hc)
  · intro hall
    by_contra hne
    have hnil : (normalizeQuery payload).toList ≠ [] := by simpa using hne
    have hmem := List.getLast_mem hnil
    have hend := List.getLast?_eq_some_getLast hnil
    have hin : (normalizeQuery payload).toList.getLast hnil ∈ payload.toList := by
      have h := (normalizeQuery_prefixed payload).subset hmem
      rw [toList_strip] at h
      exact mem_of_mem_trim h
    rcases hall _ hin with h | h
    · simp [htrimmed.last _ hend] at h
    · simp [hlast _ hend] at h

/-- The normalized query is the payload's normal form exactly when the stripped payload has no
layered tail. -/
theorem normalForm_iff (payload : String) :
    NormalForm payload (normalizeQuery payload) ↔ ¬ LayeredTail (strip payload) := by
  rw [← last_normalizeQuery_iff]
  constructor
  · exact NormalForm.last
  · intro hlast
    exact ⟨normalizeQuery_trimmed payload, hlast, normalizeQuery_prefixed payload,
      normalizeQuery_empty_iff hlast, normalizeQuery_again hlast⟩

/-- A payload of punctuation alone is neither emptied nor fully normalized. -/
theorem normalForm_layered : normalizeQuery "? !" = "?" ∧ ¬ NormalForm "? !" (normalizeQuery "? !") := by
  have h : normalizeQuery "? !" = "?" := by decide
  refine ⟨h, fun hform => ?_⟩
  have hlast := hform.last '?' (by rw [h]; rfl)
  exact absurd hlast (by decide)

end DiaryMemory
