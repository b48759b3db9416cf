import DiaryMemory.AnswerSchema

/-!
# What the parsers accept and refuse

A parsed answer keeps the rules of its planes : what it cites was offered, and the notes plane
(and the knowledge plane) is empty or has both a text and citations.

A parser refuses what it does not accept with an error of its own family (`OwnFamily`), with one
exception : a marker that is a list or an object makes the membership test raise `TypeError`, once
the checks before it have passed (`StrayMarker`). The parser of the model-only answer has no
marker.
-/

namespace DiaryMemory

/-! ## Families -/

/-- A value, or an exception of the family. -/
def OwnFamily {α : Type} (family : AnswerFamily) (r : Except Exn α) : Prop :=
  ∀ e, r = .error e → ∃ name message, e = .answerError family name message

/-- Every message is raised in the family. -/
def Raises (family : AnswerFamily) (raise : String → Exn) : Prop :=
  ∀ message, ∃ name text, raise message = .answerError family name text

namespace OwnFamily

variable {α β : Type} {family : AnswerFamily} {raise : String → Exn}

theorem value (a : α) : OwnFamily family (.ok a : Except Exn α) := nofun

theorem refusal (h : Raises family raise) (message : String) :
    OwnFamily family (.error (raise message) : Except Exn α) := by
  intro e he
  obtain ⟨name, text, hraise⟩ := h message
  exact ⟨name, text, (Except.error.inj he).symm.trans hraise⟩

theorem bind {x : Except Exn α} {f : α → Except Exn β} (hx : OwnFamily family x)
    (hf : ∀ a, x = .ok a → OwnFamily family (f a)) : OwnFamily family (x >>= f) := by
  cases x with
  | ok a => exact hf a rfl
  | error e =>
    intro e' he
    exact hx e' (congrArg Except.error (Except.error.inj he))

end OwnFamily

/-! ## Fields -/

/-- A list or an object can not be a member of a set. -/
def Json.IsUnhashable : Json → Prop
  | .list _ | .dict _ => True
  | _ => False

section Fields

variable {fields : Fields} {family : AnswerFamily} {raise : String → Exn} {name : String}

/-- The field is a string. -/
def HoldsString (fields : Fields) (name : String) : Prop :=
  ∃ s, fields.lookup name = some (.str s)

/-- The field is a list of strings. -/
def HoldsStrings (fields : Fields) (name : String) : Prop :=
  ∃ items strings, fields.lookup name = some (.list items) ∧ allStrings items = some strings

/-- The field is a list or an object. -/
def HoldsUnhashable (fields : Fields) (name : String) : Prop :=
  ∃ value, fields.lookup name = some value ∧ value.IsUnhashable

theorem missingFields_eq_nil {required : List String} : missingFields required fields = [] ↔
    ∀ name ∈ required, (fields.lookup name).isSome := by
  rw [missingFields, ← List.length_eq_zero_iff, List.length_insertionSort, List.length_eq_zero_iff,
    List.filter_eq_nil_iff]
  refine forall_congr' fun name => imp_congr_right fun _ => ?_
  cases fields.lookup name <;> simp

theorem stringField_of_holds (raise : String → Exn) (h : HoldsString fields name) :
    ∃ s, stringField raise fields name = .ok s := by
  obtain ⟨s, hs⟩ := h
  exact ⟨s, by rw [stringField, hs]; rfl⟩

theorem holds_of_stringField {s : String} (h : stringField raise fields name = .ok s) :
    HoldsString fields name := by
  unfold stringField at h
  split at h
  · next s' hs => exact ⟨s', hs⟩
  · cases h

theorem stringField_own (h : Raises family raise) :
    OwnFamily family (stringField raise fields name) := by
  unfold stringField
  split
  · exact .value _
  · exact .refusal h _

theorem stringListField_of_holds (raise : String → Exn) (h : HoldsStrings fields name) :
    ∃ ss, stringListField raise fields name = .ok ss := by
  obtain ⟨items, strings, hitems, hstrings⟩ := h
  exact ⟨strings, by simp only [stringListField, hitems, hstrings]; rfl⟩

theorem holds_of_stringListField {ss : List String}
    (h : stringListField raise fields name = .ok ss) : HoldsStrings fields name := by
  unfold stringListField at h
  split at h
  · next items hitems =>
    split at h
    · next strings hstrings => exact ⟨items, strings, hitems, hstrings⟩
    · cases h
  · cases h

theorem stringListField_own (h : Raises family raise) :
    OwnFamily family (stringListField raise fields name) := by
  unfold stringListField
  split
  · split
    · exact .value _
    · exact .refusal h _
  · exact .refusal h _

variable {M : Type} {json : JsonModule} {markers : List (String × M)}

/-- An unhashable marker raises `TypeError`. -/
theorem markerField_of_unhashable (json : JsonModule) (raise : String → Exn)
    (markers : List (String × M)) (h : HoldsUnhashable fields name) :
    ∃ message, markerField json raise fields name markers = .error (.typeError message) := by
  obtain ⟨value, hvalue, hunhashable⟩ := h
  unfold markerField
  rw [hvalue]
  cases value with
  | list items => exact ⟨_, rfl⟩
  | dict fields => exact ⟨_, rfl⟩
  | _ => exact absurd hunhashable id

theorem markerField_own (h : Raises family raise) (hpresent : (fields.lookup name).isSome)
    (hnot : ¬ HoldsUnhashable fields name) :
    OwnFamily family (markerField json raise fields name markers) := by
  obtain ⟨value, hvalue⟩ := Option.isSome_iff_exists.mp hpresent
  have hhashable : ¬ value.IsUnhashable := fun hv => hnot ⟨value, hvalue, hv⟩
  unfold markerField
  rw [hvalue]
  refine .bind ?_ fun marker _ => ?_
  · cases value with
    | list items => exact absurd trivial hhashable
    | dict fields => exact absurd trivial hhashable
    | _ => exact .value _
  · cases marker with
    | some marker => exact .value marker
    | none => exact .refusal h _

end Fields

/-! ## The stray marker -/

/-- The text is an object that passes the checks before the marker, which is a list or an
object. A `closed` object has no other fields than the required ones. -/
def StrayMarker (json : JsonModule) (raw : String) (closed : Bool)
    (required strings lists : List String) (marker : String) : Prop :=
  ∃ fields, json.loads raw = .ok (.dict fields) ∧ missingFields required fields = [] ∧
    (closed = true → extraFields required fields = []) ∧ (∀ name ∈ strings, HoldsString fields name) ∧
    (∀ name ∈ lists, HoldsStrings fields name) ∧ HoldsUnhashable fields marker

def StrayStructured (json : JsonModule) (raw : String) : Prop :=
  StrayMarker json raw true structuredFields ["answer_text"] ["cited_chunk_ids"] "uncertainty"

def StrayNotesPlusModel (json : JsonModule) (raw : String) : Prop :=
  StrayMarker json raw false notesPlusModelFields ["notes_text", "model_text"] ["cited_chunk_ids"]
    "notes_uncertainty"

def StrayNotesPlusKnowledge (json : JsonModule) (raw : String) : Prop :=
  StrayMarker json raw false notesPlusKnowledgeFields ["notes_text", "knowledge_text", "model_text"]
    ["cited_chunk_ids", "cited_knowledge_refs"] "notes_uncertainty"

section Parsers

variable {json : JsonModule} {raw : String} {context : AnswerContext} {refs : List String}

theorem raises_malformed : Raises .structured malformedAnswerJson := fun m => ⟨_, m, rfl⟩

theorem raises_mismatch : Raises .structured answerSchemaMismatch := fun m => ⟨_, m, rfl⟩

theorem raises_fabricated : Raises .structured fabricatedCitation := fun m => ⟨_, m, rfl⟩

theorem raises_notesPlusModel : Raises .notesPlusModel notesPlusModelError := fun m => ⟨_, m, rfl⟩

theorem raises_notesPlusKnowledge : Raises .notesPlusKnowledge notesPlusKnowledgeError :=
  fun m => ⟨_, m, rfl⟩

theorem raises_modelOnly : Raises .modelOnly modelOnlyError := fun m => ⟨_, m, rfl⟩

theorem checkNotesPlane_own {family : AnswerFamily} {raise : String → Exn} (h : Raises family raise)
    (text : String) (cited : List String) (marker : NotesUncertainty) :
    OwnFamily family (checkNotesPlane raise text cited marker) := by
  unfold checkNotesPlane
  dsimp only
  split
  · exact .refusal h _
  · split
    · exact .refusal h _
    · exact .value _

/-- The grounded answer is refused in its own family, unless its marker is stray. -/
theorem parseStructuredAnswer_own (h : ¬ StrayStructured json raw) :
    OwnFamily .structured (parseStructuredAnswer json raw context) := by
  unfold parseStructuredAnswer
  split
  · exact .refusal raises_malformed _
  · next fields hloads =>
    dsimp only
    split
    · exact .refusal raises_mismatch _
    next hmissing =>
    split
    · exact .refusal raises_mismatch _
    next hextra =>
    refine .bind (stringField_own raises_mismatch) fun text htext => ?_
    refine .bind (stringListField_own raises_mismatch) fun cited hcited => ?_
    have hpresent := missingFields_eq_nil.mp (not_not.mp hmissing)
    refine .bind (markerField_own raises_mismatch (hpresent "uncertainty" (by decide)) fun hmarker =>
      h ⟨fields, hloads, not_not.mp hmissing, fun _ => not_not.mp hextra, ?_, ?_, hmarker⟩)
      fun marker _ => ?_
    · simpa using holds_of_stringField htext
    · simpa using holds_of_stringListField hcited
    · split
      · exact .refusal raises_fabricated _
      · split
        · exact .refusal raises_mismatch _
        · exact .value _
  · exact .refusal raises_mismatch _

/-- A stray marker of a grounded answer raises `TypeError` in every context. -/
theorem parseStructuredAnswer_stray (h : StrayStructured json raw) :
    ∃ message, parseStructuredAnswer json raw context = .error (.typeError message) := by
  obtain ⟨fields, hloads, hmissing, hextra, hstrings, hlists, hmarker⟩ := h
  obtain ⟨text, htext⟩ :=
    stringField_of_holds answerSchemaMismatch (hstrings "answer_text" (by decide))
  obtain ⟨cited, hcited⟩ :=
    stringListField_of_holds answerSchemaMismatch (hlists "cited_chunk_ids" (by decide))
  obtain ⟨message, hmessage⟩ :=
    markerField_of_unhashable json answerSchemaMismatch validUncertainty hmarker
  refine ⟨message, ?_⟩
  unfold parseStructuredAnswer
  rw [hloads]
  dsimp only
  rw [if_neg (not_not.mpr hmissing), if_neg (not_not.mpr (hextra rfl)), htext, hcited, hmessage]
  rfl

/-- The notes-plus-model answer is refused in its own family, unless its marker is stray. -/
theorem parseNotesPlusModelAnswer_own (h : ¬ StrayNotesPlusModel json raw) :
    OwnFamily .notesPlusModel (parseNotesPlusModelAnswer json raw context) := by
  unfold parseNotesPlusModelAnswer
  split
  · exact .refusal raises_notesPlusModel _
  · next fields hloads =>
    dsimp only
    split
    · exact .refusal raises_notesPlusModel _
    next hmissing =>
    have hpresent := missingFields_eq_nil.mp (not_not.mp hmissing)
    refine .bind (stringField_own raises_notesPlusModel) fun notes hnotes => ?_
    refine .bind (stringListField_own raises_notesPlusModel) fun cited hcited => ?_
    refine .bind (stringField_own raises_notesPlusModel) fun model hmodel => ?_
    refine .bind (markerField_own raises_notesPlusModel
      (hpresent "notes_uncertainty" (by decide)) fun hmarker =>
        h ⟨fields, hloads, not_not.mp hmissing, nofun, ?_, ?_, hmarker⟩) fun marker _ => ?_
    · simpa using ⟨holds_of_stringField hnotes, holds_of_stringField hmodel⟩
    · simpa using holds_of_stringListField hcited
    · split
      · exact .refusal raises_notesPlusModel _
      · exact .bind (checkNotesPlane_own raises_notesPlusModel _ _ _) fun _ _ => .value _
  · exact .refusal raises_notesPlusModel _

/-- A stray marker of a notes-plus-model answer raises `TypeError` in every context. -/
theorem parseNotesPlusModelAnswer_stray (h : StrayNotesPlusModel json raw) :
    ∃ message, parseNotesPlusModelAnswer json raw context = .error (.typeError message) := by
  obtain ⟨fields, hloads, hmissing, -, hstrings, hlists, hmarker⟩ := h
  obtain ⟨notes, hnotes⟩ :=
    stringField_of_holds notesPlusModelError (hstrings "notes_text" (by decide))
  obtain ⟨cited, hcited⟩ :=
    stringListField_of_holds notesPlusModelError (hlists "cited_chunk_ids" (by decide))
  obtain ⟨model, hmodel⟩ :=
    stringField_of_holds notesPlusModelError (hstrings "model_text" (by decide))
  obtain ⟨message, hmessage⟩ :=
    markerField_of_unhashable json notesPlusModelError validNotesUncertainty hmarker
  refine ⟨message, ?_⟩
  unfold parseNotesPlusModelAnswer
  rw [hloads]
  dsimp only
  rw [if_neg (not_not.mpr hmissing), hnotes, hcited, hmodel, hmessage]
  rfl

/-- The notes-plus-knowledge answer is refused in its own family, unless its marker is stray. -/
theorem parseNotesPlusKnowledgeAnswer_own (h : ¬ StrayNotesPlusKnowledge json raw) :
    OwnFamily .notesPlusKnowledge (parseNotesPlusKnowledgeAnswer json raw context refs) := by
  unfold parseNotesPlusKnowledgeAnswer
  split
  · exact .refusal raises_notesPlusKnowledge _
  · next fields hloads =>
    dsimp only
    split
    · exact .refusal raises_notesPlusKnowledge _
    next hmissing =>
    have hpresent := missingFields_eq_nil.mp (not_not.mp hmissing)
    refine .bind (stringField_own raises_notesPlusKnowledge) fun notes hnotes => ?_
    refine .bind (stringListField_own raises_notesPlusKnowledge) fun cited hcited => ?_
    refine .bind (stringField_own raises_notesPlusKnowledge) fun knowledge hknowledge => ?_
    refine .bind (stringListField_own raises_notesPlusKnowledge) fun citedRefs hrefs => ?_
    refine .bind (stringField_own raises_notesPlusKnowledge) fun model hmodel => ?_
    refine .bind (markerField_own raises_notesPlusKnowledge
      (hpresent "notes_uncertainty" (by decide)) fun hmarker =>
        h ⟨fields, hloads, not_not.mp hmissing, nofun, ?_, ?_, hmarker⟩) fun marker _ => ?_
    · simpa using ⟨holds_of_stringField hnotes, holds_of_stringField hknowledge,
        holds_of_stringField hmodel⟩
    · simpa using ⟨holds_of_stringListField hcited, holds_of_stringListField hrefs⟩
    · split
      · exact .refusal raises_notesPlusKnowledge _
      · split
        · exact .refusal raises_notesPlusKnowledge _
        · refine .bind (checkNotesPlane_own raises_notesPlusKnowledge _ _ _) fun _ _ => ?_
          split
          · exact .refusal raises_notesPlusKnowledge _
          · exact .value _
  · exact .refusal raises_notesPlusKnowledge _

/-- A stray marker of a notes-plus-knowledge answer raises `TypeError` in every context. -/
theorem parseNotesPlusKnowledgeAnswer_stray (h : StrayNotesPlusKnowledge json raw) :
    ∃ message,
      parseNotesPlusKnowledgeAnswer json raw context refs = .error (.typeError message) := by
  obtain ⟨fields, hloads, hmissing, -, hstrings, hlists, hmarker⟩ := h
  obtain ⟨notes, hnotes⟩ :=
    stringField_of_holds notesPlusKnowledgeError (hstrings "notes_text" (by decide))
  obtain ⟨cited, hcited⟩ :=
    stringListField_of_holds notesPlusKnowledgeError (hlists "cited_chunk_ids" (by decide))
  obtain ⟨knowledge, hknowledge⟩ :=
    stringField_of_holds notesPlusKnowledgeError (hstrings "knowledge_text" (by decide))
  obtain ⟨citedRefs, hrefs⟩ :=
    stringListField_of_holds notesPlusKnowledgeError (hlists "cited_knowledge_refs" (by decide))
  obtain ⟨model, hmodel⟩ :=
    stringField_of_holds notesPlusKnowledgeError (hstrings "model_text" (by decide))
  obtain ⟨message, hmessage⟩ :=
    markerField_of_unhashable json notesPlusKnowledgeError validNotesUncertainty hmarker
  refine ⟨message, ?_⟩
  unfold parseNotesPlusKnowledgeAnswer
  rw [hloads]
  dsimp only
  rw [if_neg (not_not.mpr hmissing), hnotes, hcited, hknowledge, hrefs, hmodel, hmessage]
  rfl

/-- The model-only answer is always refused in its own family. -/
theorem parseModelOnlyAnswer_own : OwnFamily .modelOnly (parseModelOnlyAnswer json raw) := by
  unfold parseModelOnlyAnswer
  split
  · exact .refusal raises_modelOnly _
  · split
    · exact .value _
    · exact .refusal raises_modelOnly _
  · exact .refusal raises_modelOnly _

/-! ## What is accepted -/

theorem ok_of_bind {α β : Type} {x : Except Exn α} {f : α → Except Exn β} {b : β}
    (h : x >>= f = .ok b) : ∃ a, x = .ok a ∧ f a = .ok b := by
  cases x with
  | ok a => exact ⟨a, rfl, h⟩
  | error e => cases h

theorem fabricated_eq_nil {offered cited : List String} :
    fabricated offered cited = [] ↔ cited ⊆ offered := by
  simp only [fabricated, List.filter_eq_nil_iff, List.contains_eq_mem, Bool.not_eq_true',
    decide_eq_false_iff_not, not_not]
  exact Iff.rfl

/-- A grounded answer cites the context, and only an answer without evidence cites nothing. -/
theorem StructuredAnswer.grounded {answer : StructuredAnswer}
    (h : parseStructuredAnswer json raw context = .ok answer) :
    answer.citedChunkIds ⊆ context.chunkIds ∧
      (answer.citedChunkIds = [] → answer.uncertainty = .noEvidence) := by
  unfold parseStructuredAnswer at h
  split at h
  · cases h
  · dsimp only at h
    split at h
    · cases h
    split at h
    · cases h
    obtain ⟨text, -, h⟩ := ok_of_bind h
    obtain ⟨cited, -, h⟩ := ok_of_bind h
    obtain ⟨marker, -, h⟩ := ok_of_bind h
    split at h
    · cases h
    next hmade =>
    split at h
    · cases h
    next hempty =>
    cases h
    exact ⟨fabricated_eq_nil.mp (not_not.mp hmade),
      fun hcited => by_contra fun hmarker => hempty ⟨hcited, hmarker⟩⟩
  · cases h

theorem checkNotesPlane_ok {raise : String → Exn} {text : String} {cited : List String}
    {marker : NotesUncertainty} (h : checkNotesPlane raise text cited marker = .ok ()) :
    (marker = .noEvidence ↔ cited = []) ∧ (text = "" ↔ cited = []) := by
  unfold checkNotesPlane at h
  dsimp only at h
  split at h
  · cases h
  next hnone =>
  split at h
  · cases h
  next hsome =>
  by_cases hmarker : marker = .noEvidence
  · have hplane : cited = [] ∧ text = "" := by_contra fun hn => hnone ⟨hmarker, hn⟩
    simp [hmarker, hplane.1, hplane.2]
  · have hplane : ¬ (cited = [] ∨ text = "") := fun hn => hsome ⟨hmarker, hn⟩
    push Not at hplane
    simp [hmarker, hplane.1, hplane.2]

/-- The notes plane of a notes-plus-model answer. -/
theorem NotesPlusModelAnswer.grounded {answer : NotesPlusModelAnswer}
    (h : parseNotesPlusModelAnswer json raw context = .ok answer) :
    answer.citedChunkIds ⊆ context.chunkIds ∧
      (answer.notesUncertainty = .noEvidence ↔ answer.citedChunkIds = []) ∧
      (answer.notesText = "" ↔ answer.citedChunkIds = []) := by
  unfold parseNotesPlusModelAnswer at h
  split at h
  · cases h
  · dsimp only at h
    split at h
    · cases h
    obtain ⟨notes, -, h⟩ := ok_of_bind h
    obtain ⟨cited, -, h⟩ := ok_of_bind h
    obtain ⟨model, -, h⟩ := ok_of_bind h
    obtain ⟨marker, -, h⟩ := ok_of_bind h
    split at h
    · cases h
    next hmade =>
    obtain ⟨_, hplane, h⟩ := ok_of_bind h
    cases h
    exact ⟨fabricated_eq_nil.mp (not_not.mp hmade), checkNotesPlane_ok hplane⟩
  · cases h

/-- The planes of a notes-plus-knowledge answer. -/
theorem NotesPlusKnowledgeAnswer.grounded {answer : NotesPlusKnowledgeAnswer}
    (h : parseNotesPlusKnowledgeAnswer json raw context refs = .ok answer) :
    (answer.citedChunkIds ⊆ context.chunkIds ∧
      (answer.notesUncertainty = .noEvidence ↔ answer.citedChunkIds = []) ∧
      (answer.notesText = "" ↔ answer.citedChunkIds = [])) ∧
      answer.citedKnowledgeRefs ⊆ refs ∧
      (answer.knowledgeText = "" ↔ answer.citedKnowledgeRefs = []) := by
  unfold parseNotesPlusKnowledgeAnswer at h
  split at h
  · cases h
  · dsimp only at h
    split at h
    · cases h
    obtain ⟨notes, -, h⟩ := ok_of_bind h
    obtain ⟨cited, -, h⟩ := ok_of_bind h
    obtain ⟨knowledge, -, h⟩ := ok_of_bind h
    obtain ⟨citedRefs, -, h⟩ := ok_of_bind h
    obtain ⟨model, -, h⟩ := ok_of_bind h
    obtain ⟨marker, -, h⟩ := ok_of_bind h
    split at h
    · cases h
    next hmade =>
    split at h
    · cases h
    next hmadeRefs =>
    obtain ⟨_, hplane, h⟩ := ok_of_bind h
    split at h
    · cases h
    next hknowledge =>
    cases h
    exact ⟨⟨fabricated_eq_nil.mp (not_not.mp hmade), checkNotesPlane_ok hplane⟩,
      fabricated_eq_nil.mp (not_not.mp hmadeRefs), not_not.mp hknowledge⟩
  · cases h

end Parsers

end DiaryMemory
