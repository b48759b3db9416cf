import DiaryMemory.MockProviders
import DiaryMemory.Segments
import Mathlib.Data.List.Dedup

/-!
# What the mock chat client writes is read

A payload with distinct names is read back with the fields it was written with
(`loads_dumpsSorted`). So each parser accepts the answer of `MockChatClient` to a prompt of its own
pipeline, as an answer that cites every chunk and every excerpt on offer : the four theorems at
the end, one for each pipeline.
-/

namespace DiaryMemory

open JsonText (Value names)

/-! ## Payloads -/

theorem decodedItems_eq (vs : List Value) : JsonText.decodedItems vs = vs.map Value.decoded := by
  induction vs with
  | nil => rfl
  | cons v vs ih => rw [JsonText.decodedItems, ih, List.map_cons]

theorem decodedFields_eq (fields : List (String × Value)) :
    JsonText.decodedFields fields = fields.map fun x => (x.1, x.2.decoded) := by
  induction fields with
  | nil => rfl
  | cons field fields ih => rw [JsonText.decodedFields, ih, List.map_cons]

/-- What is found in the dict that a payload becomes. -/
structure Fields.Of (fields : Fields) (payload : List (String × Value)) : Prop where
  lookup : ∀ name, List.lookup name fields =
    (payload.lookup name).map fun v => v.sortKeys.decoded
  names : ∀ f ∈ fields, f.1 ∈ names payload

section Payloads

variable {decodeError : String → JsonDecodeError} {repr : Json → String} {reprStr : String → String}
  {payload : List (String × Value)} {fields : Fields} {name : String}

theorem Fields.Of.str (h : fields.Of payload) {s : String}
    (hs : payload.lookup name = some (.str s)) : List.lookup name fields = some (.str s) := by
  rw [h.lookup, hs]
  rfl

theorem Fields.Of.strings (h : fields.Of payload) {texts : List String}
    (hs : payload.lookup name = some (Value.strings texts)) :
    List.lookup name fields = some (.list (texts.map .str)) := by
  rw [h.lookup, hs, Option.map_some, Value.strings, JsonText.sortKeys_strings, Value.decoded,
    decodedItems_eq, List.map_map]
  rfl

/-- Sorting its names keeps the fields of a payload. -/
theorem decoded_sortKeys (h : (names payload).Nodup) :
    ∃ fields : Fields, fields.Of payload ∧ (Value.dict payload).sortKeys.decoded = .dict fields := by
  set sorted := (JsonText.sortValues payload).insertionSort fun f g => f.1 ≤ g.1 with hsorted
  have hperm := JsonText.perm_sortValues payload
  have hnames : names (payload.map fun x => (x.1, x.2.sortKeys)) = names payload :=
    JsonText.names_map _ _
  have hsortedNames : (names sorted).Perm (names payload) := hnames ▸ hperm.map Prod.fst
  have hdecoded : names (JsonText.decodedFields sorted) = names sorted := by
    rw [decodedFields_eq, JsonText.names_map]
  have hnodup : (names (JsonText.decodedFields sorted)).Nodup := by
    rw [hdecoded]
    exact hsortedNames.nodup_iff.mpr h
  refine ⟨JsonText.decodedFields sorted, ⟨fun name => ?_, fun f hf => ?_⟩, ?_⟩
  · rw [decodedFields_eq, JsonText.lookup_map,
      JsonText.lookup_of_perm hperm (hsortedNames.nodup_iff.mpr h), JsonText.lookup_map,
      Option.map_map]
    rfl
  · rw [← hsortedNames.mem_iff, ← hdecoded]
    exact List.mem_map_of_mem hf
  · rw [Value.sortKeys, Value.decoded, JsonText.asDict_of_nodup hnodup]

/-- A payload that was written is read with its fields. -/
theorem loads_dumpsSorted (ascii : Bool) (h : (names payload).Nodup) :
    ∃ fields : Fields, fields.Of payload ∧
      (JsonModule.python decodeError repr reprStr).loads (dumpsSorted ascii (.dict payload)) =
        .ok (.dict fields) := by
  obtain ⟨fields, hfields, hdecoded⟩ := decoded_sortKeys h
  refine ⟨fields, hfields, ?_⟩
  rw [dumpsSorted, JsonModule.loads_dumps, hdecoded]

end Payloads

/-! ## The grounded answer -/

/-- The text a provider gives the marker. -/
def UncertaintyMarker.text : UncertaintyMarker → String
  | confident => "confident"
  | uncertain => "uncertain"
  | noEvidence => "no_evidence"
  | ambiguous => "ambiguous"

/-- A grounded answer, read off the fields; there are no others. -/
structure StructuredAnswer.ReadFrom (answer : StructuredAnswer) (fields : Fields)
    (context : AnswerContext) : Prop where
  closed : ∀ f ∈ fields, f.1 ∈ structuredFields
  answer_text : fields.lookup "answer_text" = some (.str answer.answerText)
  cited_chunk_ids : fields.lookup "cited_chunk_ids" = some (.list (answer.citedChunkIds.map .str))
  uncertainty : fields.lookup "uncertainty" = some (.str answer.uncertainty.text)
  offered : answer.citedChunkIds ⊆ context.chunkIds
  no_evidence : answer.citedChunkIds = [] → answer.uncertainty = .noEvidence

theorem lookup_validUncertainty {text : String} {marker : UncertaintyMarker} :
    validUncertainty.lookup text = some marker ↔ text = marker.text := by
  have hnodup : (names validUncertainty).Nodup := by decide
  rw [← JsonText.mem_iff_lookup hnodup]
  simp only [validUncertainty, List.mem_cons, Prod.mk.injEq, List.not_mem_nil, or_false]
  cases marker <;> simp [UncertaintyMarker.text]

theorem extraFields_eq_nil {required : List String} {fields : Fields} :
    extraFields required fields = [] ↔ ∀ f ∈ fields, f.1 ∈ required := by
  rw [extraFields, ← List.length_eq_zero_iff, List.length_insertionSort, List.length_eq_zero_iff,
    List.filter_eq_nil_iff]
  simp only [List.mem_dedup, List.mem_map, List.contains_eq_mem, Bool.not_eq_true',
    decide_eq_false_iff_not, not_not, forall_exists_index, and_imp, forall_apply_eq_imp_iff₂]

theorem markerField_eq_ok {M : Type} {json : JsonModule} {raise : String → Exn} {fields : Fields}
    {name : String} {markers : List (String × M)} {marker : M} :
    markerField json raise fields name markers = .ok marker ↔
      ∃ text, fields.lookup name = some (.str text) ∧ markers.lookup text = some marker := by
  unfold markerField
  cases hvalue : fields.lookup name with
  | none => exact ⟨nofun, nofun⟩
  | some value =>
    cases value with
    | str text =>
      dsimp only [inFrozenset]
      rw [pure_bind]
      cases hlookup : markers.lookup text with
      | none =>
        refine ⟨nofun, ?_⟩
        rintro ⟨_, he, h⟩
        cases he
        rw [hlookup] at h
        cases h
      | some found =>
        refine ⟨fun h => ⟨text, rfl, hlookup.trans (congrArg some (Except.ok.inj h))⟩, ?_⟩
        rintro ⟨_, he, h⟩
        cases he
        exact congrArg Except.ok (Option.some.inj (hlookup.symm.trans h))
    | _ => exact ⟨nofun, nofun⟩

section Parsers

variable {json : JsonModule} {raw : String} {context : AnswerContext} {fields : Fields}

/-- Exactly the grounded answers that can be read off the fields are accepted. -/
theorem parseStructuredAnswer_eq_ok (hraw : json.loads raw = .ok (.dict fields))
    {answer : StructuredAnswer} :
    parseStructuredAnswer json raw context = .ok answer ↔ answer.ReadFrom fields context := by
  unfold parseStructuredAnswer
  rw [hraw]
  dsimp only
  constructor
  · intro h
    split at h
    · cases h
    split at h
    · cases h
    next hextra =>
    simp only [bind_eq_ok, stringField_eq_ok, stringListField_eq_ok, markerField_eq_ok] at h
    obtain ⟨text, htext, cited, hcited, marker, ⟨word, hword, hmarker⟩, h⟩ := h
    rw [lookup_validUncertainty] at hmarker
    subst hmarker
    split at h
    · cases h
    next hmade =>
    split at h
    · cases h
    next hempty =>
    cases h
    exact ⟨extraFields_eq_nil.mp (not_not.mp hextra), htext, hcited, hword,
      fabricated_eq_nil.mp (not_not.mp hmade),
      fun hnone => by_contra fun hmarker => hempty ⟨hnone, hmarker⟩⟩
  · intro h
    have hmissing : missingFields structuredFields fields = [] := by
      simp only [missingFields_eq_nil, structuredFields, List.forall_mem_cons, h.answer_text,
        h.cited_chunk_ids, h.uncertainty, Option.isSome_some, List.not_mem_nil, false_imp_iff,
        implies_true, and_self]
    rw [if_neg (not_not.mpr hmissing), if_neg (not_not.mpr (extraFields_eq_nil.mpr h.closed)),
      stringField_eq_ok.mpr h.answer_text, stringListField_eq_ok.mpr h.cited_chunk_ids,
      markerField_eq_ok.mpr ⟨_, h.uncertainty, lookup_validUncertainty.mpr rfl⟩]
    change (if fabricated context.chunkIds answer.citedChunkIds ≠ [] then _ else
      if answer.citedChunkIds = [] ∧ answer.uncertainty ≠ .noEvidence then _ else _) = _
    rw [if_neg (not_not.mpr (fabricated_eq_nil.mpr h.offered)),
      if_neg fun hnone => hnone.2 (h.no_evidence hnone.1)]
    rfl

end Parsers

/-! ## The four pipelines -/

namespace MockChatClient

/-- The grounded answer of the client. -/
def structuredAnswer (cited : List String) : StructuredAnswer :=
  if cited = [] then ⟨"No diary chunks were retrieved; cannot answer.", [], .noEvidence⟩
  else ⟨groundedText cited, cited, .confident⟩

/-- The notes segment of the client, and its marker. -/
def notesSegment (cited : List String) : String × NotesUncertainty :=
  if cited = [] then ("", .noEvidence) else (notesText cited, .confident)

def knowledgeSegment (refs : List String) : String := if refs = [] then "" else knowledgeText refs

theorem append_ne_empty {a b c : String} (h : b ≠ "") : a ++ b ++ c ≠ "" := fun he =>
  h (String.append_eq_empty_iff.mp (String.append_eq_empty_iff.mp he).1).2

theorem notesText_ne_empty (cited : List String) : notesText cited ≠ "" := by
  unfold notesText
  exact append_ne_empty (by decide)

theorem knowledgeText_ne_empty (refs : List String) : knowledgeText refs ≠ "" := by
  unfold knowledgeText
  exact append_ne_empty (by decide)

variable (client : MockChatClient) {prompt : AnswerPrompt}

theorem rawText_structured (h : prompt.promptVersion = promptVersion) :
    (client.complete prompt).rawText = dumpsSorted false (structuredPayload prompt.citedChunkIds) := by
  rw [complete, h, if_neg (by decide), if_neg (by decide), if_neg (by decide)]
  rfl

theorem rawText_notesPlusModel (h : prompt.promptVersion = notesPlusModelPromptVersion) :
    (client.complete prompt).rawText =
      dumpsSorted false (notesPlusModelPayload prompt.citedChunkIds) := by
  rw [complete, h, if_neg (by decide), if_pos rfl]
  rfl

theorem rawText_notesPlusKnowledge (h : prompt.promptVersion = notesPlusKnowledgePromptVersion) :
    (client.complete prompt).rawText =
      dumpsSorted false (notesPlusKnowledgePayload prompt.citedChunkIds prompt.knowledgeRefs) := by
  rw [complete, h, if_neg (by decide), if_neg (by decide), if_pos rfl]
  rfl

theorem rawText_modelOnly (h : prompt.promptVersion = modelOnlyPromptVersion) :
    (client.complete prompt).rawText = dumpsSorted false modelOnlyPayload := by
  rw [complete, h, if_pos rfl]
  rfl

variable {decodeError : String → JsonDecodeError} {repr : Json → String} {reprStr : String → String}
  {context : AnswerContext}

/-- A grounded payload is read as the answer it spells. -/
theorem parse_structuredPayload {text : String} {cited : List String} {marker : UncertaintyMarker}
    (hoffered : cited ⊆ context.chunkIds) (hempty : cited = [] → marker = .noEvidence) :
    parseStructuredAnswer (.python decodeError repr reprStr)
      (dumpsSorted false (.dict [("answer_text", .str text),
        ("cited_chunk_ids", Value.strings cited), ("uncertainty", .str marker.text)])) context =
      .ok ⟨text, cited, marker⟩ := by
  have hnodup : structuredFields.Nodup := by decide
  obtain ⟨fields, hfields, hraw⟩ := @loads_dumpsSorted decodeError repr reprStr
    [("answer_text", .str text), ("cited_chunk_ids", Value.strings cited),
      ("uncertainty", .str marker.text)] false hnodup
  have hclosed : ∀ f ∈ fields, f.1 ∈ structuredFields := hfields.names
  have htext : List.lookup "answer_text" fields = some (.str text) := hfields.str rfl
  have hcited : List.lookup "cited_chunk_ids" fields = some (.list (cited.map .str)) :=
    hfields.strings rfl
  have hmarker : List.lookup "uncertainty" fields = some (.str marker.text) := hfields.str rfl
  exact (parseStructuredAnswer_eq_ok hraw).mpr ⟨hclosed, htext, hcited, hmarker, hoffered, hempty⟩

theorem parse_structured (h : prompt.promptVersion = promptVersion)
    (hcited : prompt.citedChunkIds = context.chunkIds) :
    parseStructuredAnswer (.python decodeError repr reprStr) (client.complete prompt).rawText context =
      .ok (structuredAnswer context.chunkIds) := by
  rw [rawText_structured client h, hcited, structuredPayload, structuredAnswer]
  by_cases hnone : context.chunkIds = []
  · rw [if_pos hnone, if_pos hnone, hnone]
    exact @parse_structuredPayload decodeError repr reprStr context _ [] .noEvidence
      (List.nil_subset _) fun _ => rfl
  · rw [if_neg hnone, if_neg hnone]
    exact @parse_structuredPayload decodeError repr reprStr context _ _ .confident
      (List.Subset.refl _) fun he => absurd he hnone

/-- A segmented payload is read as the answer it spells. -/
theorem parse_notesPlusModelPayload {text model : String} {cited : List String}
    {marker : NotesUncertainty} (hoffered : cited ⊆ context.chunkIds)
    (hmarker : marker = .noEvidence ↔ cited = []) (hempty : cited = [] ↔ text = "") :
    parseNotesPlusModelAnswer (.python decodeError repr reprStr)
      (dumpsSorted false (.dict [("notes_text", .str text), ("cited_chunk_ids", Value.strings cited),
        ("model_text", .str model), ("notes_uncertainty", .str marker.text)])) context =
      .ok ⟨text, cited, model, marker⟩ := by
  have hnodup : notesPlusModelFields.Nodup := by decide
  obtain ⟨fields, hfields, hraw⟩ := @loads_dumpsSorted decodeError repr reprStr
    [("notes_text", .str text), ("cited_chunk_ids", Value.strings cited), ("model_text", .str model),
      ("notes_uncertainty", .str marker.text)] false hnodup
  have htext : List.lookup "notes_text" fields = some (.str text) := hfields.str rfl
  have hcited : List.lookup "cited_chunk_ids" fields = some (.list (cited.map .str)) :=
    hfields.strings rfl
  have hmodel : List.lookup "model_text" fields = some (.str model) := hfields.str rfl
  have hnotes : List.lookup "notes_uncertainty" fields = some (.str marker.text) := hfields.str rfl
  exact (parseNotesPlusModelAnswer_eq_ok hraw).mpr
    ⟨htext, hcited, hmodel, hnotes, hoffered, hmarker, hempty⟩

/-- The segments of the client are empty at once. -/
theorem notesSegment_spec (cited : List String) :
    ((notesSegment cited).2 = .noEvidence ↔ cited = []) ∧
      (cited = [] ↔ (notesSegment cited).1 = "") := by
  unfold notesSegment
  split
  · next h => simp [h]
  · next h => simp [h, notesText_ne_empty]

theorem knowledgeSegment_eq_empty (refs : List String) : knowledgeSegment refs = "" ↔ refs = [] := by
  unfold knowledgeSegment
  split
  · next h => simp [h]
  · next h => simp [h, knowledgeText_ne_empty]

theorem parse_notesPlusModel (h : prompt.promptVersion = notesPlusModelPromptVersion)
    (hcited : prompt.citedChunkIds = context.chunkIds) :
    parseNotesPlusModelAnswer (.python decodeError repr reprStr) (client.complete prompt).rawText
      context = .ok ⟨(notesSegment context.chunkIds).1, context.chunkIds, notesPlusModelText,
        (notesSegment context.chunkIds).2⟩ := by
  obtain ⟨hmarker, hempty⟩ := notesSegment_spec context.chunkIds
  have hread := @parse_notesPlusModelPayload decodeError repr reprStr context _ notesPlusModelText
    _ _ (List.Subset.refl _) hmarker hempty
  rw [rawText_notesPlusModel client h, hcited, notesPlusModelPayload, ← hread]
  by_cases hnone : context.chunkIds = []
  · rw [if_pos hnone, notesSegment, if_pos hnone, hnone]
    rfl
  · rw [if_neg hnone, notesSegment, if_neg hnone]
    rfl

/-- A payload with a knowledge plane is read as the answer it spells. -/
theorem parse_notesPlusKnowledgePayload {text knowledge model : String} {cited refs : List String}
    {marker : NotesUncertainty} (hoffered : cited ⊆ context.chunkIds)
    (hmarker : marker = .noEvidence ↔ cited = []) (hempty : cited = [] ↔ text = "")
    (hpair : knowledge = "" ↔ refs = []) :
    parseNotesPlusKnowledgeAnswer (.python decodeError repr reprStr)
      (dumpsSorted false (.dict [("notes_text", .str text), ("cited_chunk_ids", Value.strings cited),
        ("notes_uncertainty", .str marker.text), ("knowledge_text", .str knowledge),
        ("cited_knowledge_refs", Value.strings refs), ("model_text", .str model)])) context refs =
      .ok ⟨text, cited, knowledge, refs, model, marker⟩ := by
  have hnodup : ["notes_text", "cited_chunk_ids", "notes_uncertainty", "knowledge_text",
    "cited_knowledge_refs", "model_text"].Nodup := by decide
  obtain ⟨fields, hfields, hraw⟩ := @loads_dumpsSorted decodeError repr reprStr
    [("notes_text", .str text), ("cited_chunk_ids", Value.strings cited),
      ("notes_uncertainty", .str marker.text), ("knowledge_text", .str knowledge),
      ("cited_knowledge_refs", Value.strings refs), ("model_text", .str model)] false hnodup
  have htext : List.lookup "notes_text" fields = some (.str text) := hfields.str rfl
  have hcited : List.lookup "cited_chunk_ids" fields = some (.list (cited.map .str)) :=
    hfields.strings rfl
  have hmodel : List.lookup "model_text" fields = some (.str model) := hfields.str rfl
  have hnotes : List.lookup "notes_uncertainty" fields = some (.str marker.text) := hfields.str rfl
  have hknowledge : List.lookup "knowledge_text" fields = some (.str knowledge) := hfields.str rfl
  have hrefs : List.lookup "cited_knowledge_refs" fields = some (.list (refs.map .str)) :=
    hfields.strings rfl
  exact (parseNotesPlusKnowledgeAnswer_eq_ok hraw).mpr
    ⟨⟨htext, hcited, hmodel, hnotes, hoffered, hmarker, hempty⟩,
      ⟨hknowledge, hrefs, List.Subset.refl _, hpair⟩⟩

theorem parse_notesPlusKnowledge (h : prompt.promptVersion = notesPlusKnowledgePromptVersion)
    (hcited : prompt.citedChunkIds = context.chunkIds) :
    parseNotesPlusKnowledgeAnswer (.python decodeError repr reprStr)
      (client.complete prompt).rawText context prompt.knowledgeRefs =
      .ok ⟨(notesSegment context.chunkIds).1, context.chunkIds,
        knowledgeSegment prompt.knowledgeRefs, prompt.knowledgeRefs, notesPlusModelText,
        (notesSegment context.chunkIds).2⟩ := by
  obtain ⟨hmarker, hempty⟩ := notesSegment_spec context.chunkIds
  have hread := @parse_notesPlusKnowledgePayload decodeError repr reprStr context _ _
    notesPlusModelText _ _ _ (List.Subset.refl _) hmarker hempty
    (knowledgeSegment_eq_empty prompt.knowledgeRefs)
  rw [rawText_notesPlusKnowledge client h, hcited, notesPlusKnowledgePayload, ← hread]
  unfold notesSegment knowledgeSegment
  by_cases hnone : context.chunkIds = []
  · by_cases hrefs : prompt.knowledgeRefs = []
    · simp only [hnone, hrefs, if_true]
      rfl
    · simp only [hnone, hrefs, if_true, if_false]
      rfl
  · by_cases hrefs : prompt.knowledgeRefs = []
    · simp only [hnone, hrefs, if_true, if_false]
      rfl
    · simp only [hnone, hrefs, if_false]
      rfl

theorem parse_modelOnly (h : prompt.promptVersion = modelOnlyPromptVersion) :
    parseModelOnlyAnswer (.python decodeError repr reprStr) (client.complete prompt).rawText =
      .ok modelOnlyAnswer := by
  obtain ⟨fields, hfields, hraw⟩ := @loads_dumpsSorted decodeError repr reprStr
    [("answer_text", .str modelOnlyAnswer)] false (by decide : ["answer_text"].Nodup)
  have htext : List.lookup "answer_text" fields = some (.str modelOnlyAnswer) := hfields.str rfl
  rw [rawText_modelOnly client h, modelOnlyPayload, parseModelOnlyAnswer, hraw]
  dsimp only
  rw [htext]
  rfl

end MockChatClient

end DiaryMemory
