import DiaryMemory.Decoding
import DiaryMemory.Parsing

/-!
# The language of the segmented answers

Exactly what the two parsers of the mixed routes accept. An accepted answer is read off the
fields (`NotesPlane`, `KnowledgePlane`) : every required field has its type, what is cited was
offered, and a plane is empty in its text and its citations at once.

The two parsers are written apart, and define the same notes plane : `segmented_parsers_agree`.
-/

namespace DiaryMemory

/-! ## The text of a marker -/

/-- The text a provider gives the marker. -/
def NotesUncertainty.text : NotesUncertainty → String
  | confident => "confident"
  | uncertain => "uncertain"
  | noEvidence => "no_evidence"

theorem lookup_validNotesUncertainty {text : String} {marker : NotesUncertainty} :
    validNotesUncertainty.lookup text = some marker ↔ text = marker.text := by
  by_cases h₁ : text = "confident"
  · subst h₁
    cases marker <;> simp [validNotesUncertainty, NotesUncertainty.text]
  by_cases h₂ : text = "uncertain"
  · subst h₂
    cases marker <;> simp [validNotesUncertainty, NotesUncertainty.text, List.lookup_cons]
  by_cases h₃ : text = "no_evidence"
  · subst h₃
    cases marker <;> simp [validNotesUncertainty, NotesUncertainty.text, List.lookup_cons]
  have hnone : validNotesUncertainty.lookup text = none := by
    simp [validNotesUncertainty, h₁, h₂, h₃]
  rw [hnone]
  cases marker <;> simp [NotesUncertainty.text, h₁, h₂, h₃]

/-! ## Fields that pass their checks -/

theorem bind_eq_ok {α β : Type} {x : Except Exn α} {f : α → Except Exn β} {b : β} :
    x >>= f = .ok b ↔ ∃ a, x = .ok a ∧ f a = .ok b := by
  refine ⟨ok_of_bind, ?_⟩
  rintro ⟨a, rfl, h⟩
  exact h

theorem allStrings_eq_some {items : List Json} {strings : List String} :
    allStrings items = some strings ↔ items = strings.map .str := by
  fun_induction allStrings items generalizing strings with
  | case1 => simp [eq_comm]
  | case2 s items ih =>
    rw [Option.map_eq_some_iff]
    constructor
    · rintro ⟨rest, hrest, rfl⟩
      rw [List.map_cons, ih.mp hrest]
    · intro h
      obtain ⟨s', rest, rfl, hs, hrest⟩ := List.map_eq_cons_iff.mp h.symm
      cases hs
      exact ⟨rest, ih.mpr hrest.symm, rfl⟩
  | case3 item items hitem =>
    refine ⟨nofun, fun h => ?_⟩
    obtain ⟨s, rest, rfl, rfl, -⟩ := List.map_eq_cons_iff.mp h.symm
    exact absurd rfl (hitem s)

section Fields

variable {fields : Fields} {raise : String → Exn} {name : String}

theorem stringField_eq_ok {s : String} :
    stringField raise fields name = .ok s ↔ fields.lookup name = some (.str s) := by
  unfold stringField
  split
  · next s' hs =>
    rw [hs]
    exact ⟨fun h => congrArg (some ∘ Json.str) (Except.ok.inj h),
      fun h => congrArg Except.ok (Json.str.inj (Option.some.inj h))⟩
  · next hnot => exact ⟨nofun, fun h => absurd h (hnot s)⟩

theorem stringListField_eq_ok {strings : List String} :
    stringListField raise fields name = .ok strings ↔
      fields.lookup name = some (.list (strings.map .str)) := by
  unfold stringListField
  split
  · next items hitems =>
    have hread : fields.lookup name = some (.list (strings.map .str)) ↔
        allStrings items = some strings := by
      rw [hitems, allStrings_eq_some, Option.some_inj, Json.list.injEq]
    rw [hread]
    split
    · next found hfound =>
      rw [hfound]
      exact ⟨fun h => congrArg some (Except.ok.inj h),
        fun h => congrArg Except.ok (Option.some.inj h)⟩
    · next hfound =>
      rw [hfound]
      exact ⟨nofun, nofun⟩
  · next hnot => exact ⟨nofun, fun h => absurd h (hnot _)⟩

theorem notesUncertainty_eq_ok {json : JsonModule} {marker : NotesUncertainty} :
    markerField json raise fields name validNotesUncertainty = .ok marker ↔
      fields.lookup name = some (.str marker.text) := by
  unfold markerField
  cases hvalue : fields.lookup name with
  | none => exact ⟨nofun, nofun⟩
  | some value =>
    cases value with
    | str s =>
      rw [Option.some_inj, Json.str.injEq, ← lookup_validNotesUncertainty]
      dsimp only [inFrozenset]
      rw [pure_bind]
      cases hlookup : validNotesUncertainty.lookup s with
      | none => exact ⟨nofun, nofun⟩
      | some found =>
        exact ⟨fun h => congrArg some (Except.ok.inj h),
          fun h => congrArg Except.ok (Option.some.inj h)⟩
    | _ => exact ⟨nofun, nofun⟩

theorem checkNotesPlane_eq_ok {text : String} {cited : List String} {marker : NotesUncertainty} :
    checkNotesPlane raise text cited marker = .ok () ↔
      (marker = .noEvidence ↔ cited = []) ∧ (cited = [] ↔ text = "") := by
  refine ⟨fun h => (checkNotesPlane_ok h).imp_right Iff.symm, ?_⟩
  rintro ⟨hmarker, htext⟩
  unfold checkNotesPlane
  dsimp only
  rw [if_neg, if_neg]
  · rfl
  · rintro ⟨hsome, hcited | hempty⟩
    · exact hsome (hmarker.mpr hcited)
    · exact hsome (hmarker.mpr (htext.mpr hempty))
  · rintro ⟨hnone, hplane⟩
    exact hplane ⟨hmarker.mp hnone, htext.mp (hmarker.mp hnone)⟩

end Fields

/-! ## The planes -/

/-- The notes plane and the model plane, read off the fields. -/
structure NotesPlane (fields : Fields) (context : AnswerContext) (notesText : String)
    (citedChunkIds : List String) (modelText : String) (uncertainty : NotesUncertainty) :
    Prop where
  notes_text : fields.lookup "notes_text" = some (.str notesText)
  cited_chunk_ids : fields.lookup "cited_chunk_ids" = some (.list (citedChunkIds.map .str))
  model_text : fields.lookup "model_text" = some (.str modelText)
  notes_uncertainty : fields.lookup "notes_uncertainty" = some (.str uncertainty.text)
  offered : citedChunkIds ⊆ context.chunkIds
  no_evidence : uncertainty = .noEvidence ↔ citedChunkIds = []
  no_text : citedChunkIds = [] ↔ notesText = ""

/-- The knowledge plane, read off the fields. -/
structure KnowledgePlane (fields : Fields) (knowledgeRefs : List String) (knowledgeText : String)
    (citedKnowledgeRefs : List String) : Prop where
  knowledge_text : fields.lookup "knowledge_text" = some (.str knowledgeText)
  cited_knowledge_refs :
    fields.lookup "cited_knowledge_refs" = some (.list (citedKnowledgeRefs.map .str))
  offered : citedKnowledgeRefs ⊆ knowledgeRefs
  no_text : knowledgeText = "" ↔ citedKnowledgeRefs = []

/-- A notes-plus-model answer, read off the fields. -/
def NotesPlusModelAnswer.ReadFrom (answer : NotesPlusModelAnswer) (fields : Fields)
    (context : AnswerContext) : Prop :=
  NotesPlane fields context answer.notesText answer.citedChunkIds answer.modelText
    answer.notesUncertainty

/-- A notes-plus-knowledge answer, read off the fields. -/
def NotesPlusKnowledgeAnswer.ReadFrom (answer : NotesPlusKnowledgeAnswer) (fields : Fields)
    (context : AnswerContext) (knowledgeRefs : List String) : Prop :=
  NotesPlane fields context answer.notesText answer.citedChunkIds answer.modelText
      answer.notesUncertainty ∧
    KnowledgePlane fields knowledgeRefs answer.knowledgeText answer.citedKnowledgeRefs

section Parsers

variable {json : JsonModule} {raw : String} {context : AnswerContext} {refs : List String}
  {fields : Fields}

theorem parseNotesPlusModelAnswer_eq_ok (hraw : json.loads raw = .ok (.dict fields))
    {answer : NotesPlusModelAnswer} :
    parseNotesPlusModelAnswer json raw context = .ok answer ↔ answer.ReadFrom fields context := by
  unfold parseNotesPlusModelAnswer
  rw [hraw]
  dsimp only
  constructor
  · intro h
    split at h
    · cases h
    simp only [bind_eq_ok, stringField_eq_ok, stringListField_eq_ok, notesUncertainty_eq_ok] at h
    obtain ⟨notes, hnotes, cited, hcited, model, hmodel, marker, hmarker, h⟩ := h
    split at h
    · cases h
    next hmade =>
    obtain ⟨_, hplane, h⟩ := bind_eq_ok.mp h
    obtain ⟨hevidence, htext⟩ := checkNotesPlane_eq_ok.mp hplane
    cases h
    exact ⟨hnotes, hcited, hmodel, hmarker, fabricated_eq_nil.mp (not_not.mp hmade), hevidence,
      htext⟩
  · intro h
    have hmissing : missingFields notesPlusModelFields fields = [] := by
      simp only [missingFields_eq_nil, notesPlusModelFields, List.forall_mem_cons, h.notes_text,
        h.cited_chunk_ids, h.model_text, h.notes_uncertainty, Option.isSome_some,
        List.not_mem_nil, false_imp_iff, implies_true, and_self]
    rw [if_neg (not_not.mpr hmissing), stringField_eq_ok.mpr h.notes_text,
      stringListField_eq_ok.mpr h.cited_chunk_ids, stringField_eq_ok.mpr h.model_text,
      notesUncertainty_eq_ok.mpr h.notes_uncertainty]
    change (if fabricated context.chunkIds answer.citedChunkIds ≠ [] then _ else _) = _
    rw [if_neg (not_not.mpr (fabricated_eq_nil.mpr h.offered)),
      checkNotesPlane_eq_ok.mpr ⟨h.no_evidence, h.no_text⟩]
    rfl

theorem parseNotesPlusKnowledgeAnswer_eq_ok (hraw : json.loads raw = .ok (.dict fields))
    {answer : NotesPlusKnowledgeAnswer} :
    parseNotesPlusKnowledgeAnswer json raw context refs = .ok answer ↔
      answer.ReadFrom fields context refs := by
  unfold parseNotesPlusKnowledgeAnswer
  rw [hraw]
  dsimp only
  constructor
  · intro h
    split at h
    · cases h
    simp only [bind_eq_ok, stringField_eq_ok, stringListField_eq_ok, notesUncertainty_eq_ok] at h
    obtain ⟨notes, hnotes, cited, hcited, knowledge, hknowledge, citedRefs, hrefs, model, hmodel,
      marker, hmarker, h⟩ := h
    split at h
    · cases h
    next hmade =>
    split at h
    · cases h
    next hmadeRefs =>
    obtain ⟨_, hplane, h⟩ := bind_eq_ok.mp h
    obtain ⟨hevidence, htext⟩ := checkNotesPlane_eq_ok.mp hplane
    split at h
    · cases h
    next hpair =>
    cases h
    exact ⟨⟨hnotes, hcited, hmodel, hmarker, fabricated_eq_nil.mp (not_not.mp hmade), hevidence,
      htext⟩, hknowledge, hrefs, fabricated_eq_nil.mp (not_not.mp hmadeRefs), not_not.mp hpair⟩
  · rintro ⟨h, hk⟩
    have hmissing : missingFields notesPlusKnowledgeFields fields = [] := by
      simp only [missingFields_eq_nil, notesPlusKnowledgeFields, List.forall_mem_cons,
        h.notes_text, h.cited_chunk_ids, h.model_text, h.notes_uncertainty, hk.knowledge_text,
        hk.cited_knowledge_refs, Option.isSome_some, List.not_mem_nil, false_imp_iff, implies_true,
        and_self]
    rw [if_neg (not_not.mpr hmissing), stringField_eq_ok.mpr h.notes_text,
      stringListField_eq_ok.mpr h.cited_chunk_ids, stringField_eq_ok.mpr hk.knowledge_text,
      stringListField_eq_ok.mpr hk.cited_knowledge_refs, stringField_eq_ok.mpr h.model_text,
      notesUncertainty_eq_ok.mpr h.notes_uncertainty]
    change (if fabricated context.chunkIds answer.citedChunkIds ≠ [] then _ else
      if fabricated refs answer.citedKnowledgeRefs ≠ [] then _ else _) = _
    rw [if_neg (not_not.mpr (fabricated_eq_nil.mpr h.offered)),
      if_neg (not_not.mpr (fabricated_eq_nil.mpr hk.offered)),
      checkNotesPlane_eq_ok.mpr ⟨h.no_evidence, h.no_text⟩]
    change (if ¬ (answer.knowledgeText = "" ↔ answer.citedKnowledgeRefs = []) then _ else _) = _
    rw [if_neg (not_not.mpr hk.no_text)]
    rfl

end Parsers

/-! ## The extended object -/

/-- `payload[name] = value`. -/
def Fields.set (fields : Fields) (name : String) (value : Json) : Fields :=
  (name, value) :: fields.filter fun field => field.1 ≠ name

theorem Fields.lookup_set_self (fields : Fields) (name : String) (value : Json) :
    (fields.set name value).lookup name = some value := by
  simp [set]

theorem Fields.lookup_set_of_ne {fields : Fields} {name other : String} (h : other ≠ name)
    (value : Json) : (fields.set name value).lookup other = List.lookup other fields := by
  rw [set, List.lookup_cons, beq_eq_false_iff_ne.mpr h]
  induction fields with
  | nil => rfl
  | cons field fields ih =>
    obtain ⟨key, held⟩ := field
    rw [List.filter_cons]
    by_cases hkey : key = name
    · subst hkey
      rw [List.lookup_cons, beq_eq_false_iff_ne.mpr h]
      simpa using ih
    · simp only [ne_eq, hkey, not_false_eq_true, decide_true, if_true, List.lookup_cons]
      cases other == key
      · exact ih
      · rfl

/-- The object with an empty knowledge plane. -/
def Fields.withEmptyKnowledge (fields : Fields) : Fields :=
  (fields.set "knowledge_text" (.str "")).set "cited_knowledge_refs" (.list [])

/-- The answer with an empty knowledge plane. -/
def NotesPlusModelAnswer.withEmptyKnowledge (answer : NotesPlusModelAnswer) :
    NotesPlusKnowledgeAnswer :=
  { answer with knowledgeText := "", citedKnowledgeRefs := [] }

section Extended

variable {fields : Fields} {context : AnswerContext} {refs : List String}

theorem lookup_withEmptyKnowledge (fields : Fields) (name : String)
    (htext : name ≠ "knowledge_text") (hrefs : name ≠ "cited_knowledge_refs") :
    List.lookup name fields.withEmptyKnowledge = List.lookup name fields := by
  rw [Fields.withEmptyKnowledge, Fields.lookup_set_of_ne hrefs, Fields.lookup_set_of_ne htext]

/-- The notes plane does not read the knowledge plane. -/
theorem notesPlane_withEmptyKnowledge {notesText modelText : String} {cited : List String}
    {uncertainty : NotesUncertainty} :
    NotesPlane fields.withEmptyKnowledge context notesText cited modelText uncertainty ↔
      NotesPlane fields context notesText cited modelText uncertainty := by
  have hnotes := lookup_withEmptyKnowledge fields "notes_text" (by decide) (by decide)
  have hcited := lookup_withEmptyKnowledge fields "cited_chunk_ids" (by decide) (by decide)
  have hmodel := lookup_withEmptyKnowledge fields "model_text" (by decide) (by decide)
  have hmarker := lookup_withEmptyKnowledge fields "notes_uncertainty" (by decide) (by decide)
  constructor
  · rintro ⟨h₁, h₂, h₃, h₄, h₅, h₆, h₇⟩
    exact ⟨hnotes ▸ h₁, hcited ▸ h₂, hmodel ▸ h₃, hmarker ▸ h₄, h₅, h₆, h₇⟩
  · rintro ⟨h₁, h₂, h₃, h₄, h₅, h₆, h₇⟩
    exact ⟨hnotes ▸ h₁, hcited ▸ h₂, hmodel ▸ h₃, hmarker ▸ h₄, h₅, h₆, h₇⟩

/-- The empty knowledge plane, with any refs on offer. -/
theorem knowledgePlane_withEmptyKnowledge {text : String} {cited : List String} :
    KnowledgePlane fields.withEmptyKnowledge refs text cited ↔ text = "" ∧ cited = [] := by
  have htext : List.lookup "knowledge_text" fields.withEmptyKnowledge = some (.str "") := by
    rw [Fields.withEmptyKnowledge, Fields.lookup_set_of_ne (by decide), Fields.lookup_set_self]
  have hrefs : List.lookup "cited_knowledge_refs" fields.withEmptyKnowledge = some (.list []) :=
    Fields.lookup_set_self _ _ _
  constructor
  · intro h
    have hempty : text = "" := by simpa [htext, eq_comm] using h.knowledge_text
    exact ⟨hempty, h.no_text.mp hempty⟩
  · rintro ⟨rfl, rfl⟩
    exact ⟨htext, hrefs, List.nil_subset _, by simp⟩

end Extended

section Agreement

variable {json : JsonModule} {raw extended : String} {context : AnswerContext}
  {fields : Fields}

/-- A text that is accepted is an object. -/
theorem object_of_notesPlusModel {answer : NotesPlusModelAnswer}
    (h : parseNotesPlusModelAnswer json raw context = .ok answer) :
    ∃ fields, json.loads raw = .ok (.dict fields) := by
  unfold parseNotesPlusModelAnswer at h
  split at h
  · cases h
  · next fields hraw => exact ⟨fields, hraw⟩
  · cases h

theorem object_of_notesPlusKnowledge {refs : List String} {answer : NotesPlusKnowledgeAnswer}
    (h : parseNotesPlusKnowledgeAnswer json raw context refs = .ok answer) :
    ∃ fields, json.loads raw = .ok (.dict fields) := by
  unfold parseNotesPlusKnowledgeAnswer at h
  split at h
  · cases h
  · next fields hraw => exact ⟨fields, hraw⟩
  · cases h

/-- The answer to an object is the answer to the object with an empty knowledge plane. -/
theorem withEmptyKnowledge_of_notesPlusModel (refs : List String)
    (hraw : json.loads raw = .ok (.dict fields))
    (hext : json.loads extended = .ok (.dict fields.withEmptyKnowledge))
    {answer : NotesPlusModelAnswer}
    (h : parseNotesPlusModelAnswer json raw context = .ok answer) :
    parseNotesPlusKnowledgeAnswer json extended context refs = .ok answer.withEmptyKnowledge := by
  rw [parseNotesPlusKnowledgeAnswer_eq_ok hext]
  exact ⟨notesPlane_withEmptyKnowledge.mpr ((parseNotesPlusModelAnswer_eq_ok hraw).mp h),
    knowledgePlane_withEmptyKnowledge.mpr ⟨rfl, rfl⟩⟩

theorem notesPlusModel_of_withEmptyKnowledge {refs : List String}
    (hraw : json.loads raw = .ok (.dict fields))
    (hext : json.loads extended = .ok (.dict fields.withEmptyKnowledge))
    {answer : NotesPlusKnowledgeAnswer}
    (h : parseNotesPlusKnowledgeAnswer json extended context refs = .ok answer) :
    parseNotesPlusModelAnswer json raw context =
      .ok ⟨answer.notesText, answer.citedChunkIds, answer.modelText, answer.notesUncertainty⟩ := by
  obtain ⟨hnotes, -⟩ := (parseNotesPlusKnowledgeAnswer_eq_ok hext).mp h
  exact (parseNotesPlusModelAnswer_eq_ok hraw).mpr (notesPlane_withEmptyKnowledge.mp hnotes)

end Agreement

/-- The two parsers of the mixed routes accept exactly the objects an answer can be read from,
and agree on the notes plane : the answer to an object is the answer to the object with an empty
knowledge plane, whatever refs were offered. -/
theorem segmented_parsers_agree (json : JsonModule) (context : AnswerContext) :
    (∀ raw answer, parseNotesPlusModelAnswer json raw context = .ok answer ↔
      ∃ fields, json.loads raw = .ok (.dict fields) ∧ answer.ReadFrom fields context) ∧
    (∀ raw refs answer, parseNotesPlusKnowledgeAnswer json raw context refs = .ok answer ↔
      ∃ fields, json.loads raw = .ok (.dict fields) ∧ answer.ReadFrom fields context refs) ∧
    ∀ (fields : Fields) raw extended refs, json.loads raw = .ok (.dict fields) →
      json.loads extended = .ok (.dict fields.withEmptyKnowledge) →
      ((∃ answer, parseNotesPlusModelAnswer json raw context = .ok answer) ↔
        ∃ answer, parseNotesPlusKnowledgeAnswer json extended context refs = .ok answer) ∧
      ∀ answer answer', parseNotesPlusModelAnswer json raw context = .ok answer →
        parseNotesPlusKnowledgeAnswer json extended context refs = .ok answer' →
        answer' = answer.withEmptyKnowledge := by
  refine ⟨fun raw answer => ⟨fun h => ?_, ?_⟩, fun raw refs answer => ⟨fun h => ?_, ?_⟩,
    fun fields raw extended refs hraw hext => ⟨⟨?_, ?_⟩, fun answer answer' h h' => ?_⟩⟩
  · obtain ⟨fields, hraw⟩ := object_of_notesPlusModel h
    exact ⟨fields, hraw, (parseNotesPlusModelAnswer_eq_ok hraw).mp h⟩
  · rintro ⟨fields, hraw, h⟩
    exact (parseNotesPlusModelAnswer_eq_ok hraw).mpr h
  · obtain ⟨fields, hraw⟩ := object_of_notesPlusKnowledge h
    exact ⟨fields, hraw, (parseNotesPlusKnowledgeAnswer_eq_ok hraw).mp h⟩
  · rintro ⟨fields, hraw, h⟩
    exact (parseNotesPlusKnowledgeAnswer_eq_ok hraw).mpr h
  · rintro ⟨answer, h⟩
    exact ⟨_, withEmptyKnowledge_of_notesPlusModel refs hraw hext h⟩
  · rintro ⟨answer, h⟩
    exact ⟨_, notesPlusModel_of_withEmptyKnowledge hraw hext h⟩
  · have hsame := withEmptyKnowledge_of_notesPlusModel refs hraw hext h
    exact Except.ok.inj (h'.symm.trans hsame)

/-- An object with a notes plane. -/
def walkFields : Fields :=
  [("notes_text", .str "a walk"), ("cited_chunk_ids", .list [.str "chunk"]),
    ("model_text", .str "walks help"), ("notes_uncertainty", .str "confident"),
    ("knowledge_text", .int 3)]

/-- Its text. -/
def walkText : String :=
  "\x7b\"notes_text\": \"a walk\", \"cited_chunk_ids\": [\"chunk\"], \"model_text\": " ++
    "\"walks help\", \"notes_uncertainty\": \"confident\", \"knowledge_text\": 3\x7d"

/-- The text of the object with an empty knowledge plane. -/
def walkTextExtended : String :=
  "\x7b\"cited_knowledge_refs\": [], \"knowledge_text\": \"\", \"notes_text\": \"a walk\", " ++
    "\"cited_chunk_ids\": [\"chunk\"], \"model_text\": \"walks help\", " ++
    "\"notes_uncertainty\": \"confident\"\x7d"

theorem JsonModule.loads_walk : standard.loads walkText = .ok (.dict walkFields) :=
  standard_loads (by decide +kernel : JsonText.dumps {} (.dict [("notes_text", .str "a walk"),
    ("cited_chunk_ids", .list [.str "chunk"]), ("model_text", .str "walks help"),
    ("notes_uncertainty", .str "confident"), ("knowledge_text", .int 3)]) = walkText) rfl

theorem JsonModule.loads_walkExtended :
    standard.loads walkTextExtended = .ok (.dict walkFields.withEmptyKnowledge) :=
  standard_loads (by decide +kernel : JsonText.dumps {} (.dict [("cited_knowledge_refs", .list []),
    ("knowledge_text", .str ""), ("notes_text", .str "a walk"),
    ("cited_chunk_ids", .list [.str "chunk"]), ("model_text", .str "walks help"),
    ("notes_uncertainty", .str "confident")]) = walkTextExtended) rfl

/-- A context that offers the chunk. -/
def AnswerContext.walk : AnswerContext where
  queryId := "query"
  queryText := "walk"
  orderedChunks := [⟨"chunk", "note", "source", "community", "user", .mayNinth, 0,
    "a walk", .mayNinth, .ready, none, .active, none⟩]
  modelName := "model"
  createdAt := .mayNinth

/-- The parsers agree on an answer with a note, whatever the knowledge field holds. -/
theorem segmented_parsers_agree_walk :
    (∃ answer, parseNotesPlusModelAnswer .standard walkText .walk = .ok answer) ∧
      ∃ answer, parseNotesPlusKnowledgeAnswer .standard walkTextExtended .walk ["page"] =
        .ok answer := by
  obtain ⟨haccepts, -, hagree⟩ := segmented_parsers_agree .standard .walk
  have h : parseNotesPlusModelAnswer .standard walkText .walk =
      .ok ⟨"a walk", ["chunk"], "walks help", .confident⟩ :=
    (haccepts _ _).mpr ⟨walkFields, JsonModule.loads_walk, rfl, rfl, rfl, rfl, by decide, by decide,
      by decide⟩
  exact ⟨⟨_, h⟩, (hagree walkFields walkText walkTextExtended ["page"] JsonModule.loads_walk
    JsonModule.loads_walkExtended).1.mp ⟨_, h⟩⟩

end DiaryMemory
