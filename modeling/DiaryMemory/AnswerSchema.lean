import DiaryMemory.Repository

/-!
# The answer parsers

A provider answers in JSON. Each parser decodes the text, checks the fields it needs
one after the other and the citations against what was offered, and raises an error of
its own family otherwise : `parseStructuredAnswer` for a grounded answer,
`parseNotesPlusModelAnswer` and `parseNotesPlusKnowledgeAnswer` for the mixed routes,
`parseModelOnlyAnswer` for general knowledge.

The decoder and the renderings of values that appear in messages are parameters
(`JsonModule`). Membership in a set of strings hashes the value first, which a list or
an object does not allow (`inFrozenset`).
-/

namespace DiaryMemory

/-! ## Values -/

/-- A decoded JSON value. -/
inductive Json where
  | null
  | bool (value : Bool)
  | int (value : Int)
  | float (text : String)
  | str (value : String)
  | list (items : List Json)
  | dict (fields : List (String × Json))

/-- `type(value).__name__`. -/
def Json.typeName : Json → String
  | null => "NoneType"
  | bool _ => "bool"
  | int _ => "int"
  | float _ => "float"
  | str _ => "str"
  | list _ => "list"
  | dict _ => "dict"

/-- What `json.JSONDecodeError` carries : its `msg`, and its text. -/
structure JsonDecodeError where
  msg : String
  text : String

/-- `json.loads`, and `repr` of a value and of a string. -/
structure JsonModule where
  loads : String → Except JsonDecodeError Json
  repr : Json → String
  reprStr : String → String

/-- `repr` of a list of strings. -/
def JsonModule.reprList (json : JsonModule) (items : List String) : String :=
  "[" ++ ", ".intercalate (items.map json.reprStr) ++ "]"

/-- The member of a frozenset of strings that a value is, if it is one. -/
def inFrozenset {M : Type} (members : List (String × M)) : Json → Except Exn (Option M)
  | .list _ => throw (.typeError "unhashable type: 'list'")
  | .dict _ => throw (.typeError "unhashable type: 'dict'")
  | .str s => pure (members.lookup s)
  | _ => pure none

/-! ## Fields -/

/-- The fields of a decoded object. -/
abbrev Fields := List (String × Json)

/-- The required fields a payload lacks, sorted. -/
def missingFields (required : List String) (fields : Fields) : List String :=
  (required.filter fun name => (fields.lookup name).isNone).insertionSort (· ≤ ·)

/-- The fields of a payload that are not required, sorted. -/
def extraFields (required : List String) (fields : Fields) : List String :=
  ((fields.map Prod.fst).dedup.filter fun name => !required.contains name).insertionSort (· ≤ ·)

/-- `payload[name]`, checked to be a string. -/
def stringField (raise : String → Exn) (fields : Fields) (name : String) : Except Exn String :=
  match fields.lookup name with
  | some (.str s) => pure s
  | _ => throw (raise (name ++ " must be a string"))

/-- The strings of a list that holds nothing else. -/
def allStrings : List Json → Option (List String)
  | [] => some []
  | .str s :: items => (allStrings items).map (s :: ·)
  | _ :: _ => none

/-- `payload[name]`, checked to be a list of strings. -/
def stringListField (raise : String → Exn) (fields : Fields) (name : String) :
    Except Exn (List String) :=
  match fields.lookup name with
  | some (.list items) =>
    match allStrings items with
    | some strings => pure strings
    | none => throw (raise (name ++ " must be a list of strings"))
  | _ => throw (raise (name ++ " must be a list of strings"))

/-- `payload[name]`, checked to be one of the markers by `not in`. -/
def markerField {M : Type} (json : JsonModule) (raise : String → Exn) (fields : Fields)
    (name : String) (markers : List (String × M)) : Except Exn M :=
  match fields.lookup name with
  | none => throw (.keyError name)
  | some value => do
    match ← inFrozenset markers value with
    | some marker => pure marker
    | none =>
      throw (raise (name ++ " must be one of " ++
        json.reprList ((markers.map Prod.fst).insertionSort (· ≤ ·)) ++ ", got " ++
        json.repr value))

/-- The citations that were not offered. -/
def fabricated (offered cited : List String) : List String :=
  cited.filter fun id => !offered.contains id

/-! ## The structured answer -/

/-- The markers of a structured answer. -/
inductive UncertaintyMarker where
  | confident | uncertain | noEvidence | ambiguous
  deriving DecidableEq

/-- A parsed answer whose citations are in the context. -/
structure StructuredAnswer where
  answerText : String
  citedChunkIds : List String
  uncertainty : UncertaintyMarker
  deriving DecidableEq

def malformedAnswerJson (message : String) : Exn :=
  .answerError .structured "MalformedAnswerJSONError" message

def answerSchemaMismatch (message : String) : Exn :=
  .answerError .structured "AnswerSchemaMismatchError" message

def fabricatedCitation (message : String) : Exn :=
  .answerError .structured "FabricatedCitationError" message

/-- The chunk ids a context offers. -/
def AnswerContext.chunkIds (context : AnswerContext) : List String :=
  context.orderedChunks.map EventChunk.chunkId

def validUncertainty : List (String × UncertaintyMarker) :=
  [("confident", .confident), ("uncertain", .uncertain), ("no_evidence", .noEvidence),
    ("ambiguous", .ambiguous)]

def structuredFields : List String := ["answer_text", "cited_chunk_ids", "uncertainty"]

/-- `parse_structured_answer`. -/
def parseStructuredAnswer (json : JsonModule) (raw : String) (context : AnswerContext) :
    Except Exn StructuredAnswer := do
  match json.loads raw with
  | .error e => throw (malformedAnswerJson ("raw response is not valid JSON: " ++ e.msg))
  | .ok (.dict fields) =>
    let missing := missingFields structuredFields fields
    if missing ≠ [] then
      throw (answerSchemaMismatch ("missing required fields: " ++ json.reprList missing))
    let extra := extraFields structuredFields fields
    if extra ≠ [] then
      throw (answerSchemaMismatch ("unexpected fields: " ++ json.reprList extra))
    let answerText ← stringField answerSchemaMismatch fields "answer_text"
    let citedChunkIds ← stringListField answerSchemaMismatch fields "cited_chunk_ids"
    let uncertainty ←
      markerField json answerSchemaMismatch fields "uncertainty" validUncertainty
    let made := fabricated context.chunkIds citedChunkIds
    if made ≠ [] then
      throw (fabricatedCitation ("cited_chunk_ids not present in AnswerContext: " ++
        json.reprList made))
    if citedChunkIds = [] ∧ uncertainty ≠ .noEvidence then
      throw (answerSchemaMismatch
        "empty cited_chunk_ids is only permitted with uncertainty=\"no_evidence\"")
    pure { answerText, citedChunkIds, uncertainty }
  | .ok _ => throw (answerSchemaMismatch "expected a JSON object at the top level")

/-! ## The segmented answers -/

/-- The markers of the notes plane of a segmented answer. -/
inductive NotesUncertainty where
  | confident | uncertain | noEvidence
  deriving DecidableEq

def validNotesUncertainty : List (String × NotesUncertainty) :=
  [("confident", .confident), ("uncertain", .uncertain), ("no_evidence", .noEvidence)]

/-- A parsed notes-plus-model answer. -/
structure NotesPlusModelAnswer where
  notesText : String
  citedChunkIds : List String
  modelText : String
  notesUncertainty : NotesUncertainty
  deriving DecidableEq

def notesPlusModelError (message : String) : Exn :=
  .answerError .notesPlusModel "NotesPlusModelAnswerError" message

def notesPlusModelFields : List String :=
  ["notes_text", "cited_chunk_ids", "model_text", "notes_uncertainty"]

/-- The notes plane is empty, or has both text and citations, as its marker says. -/
def checkNotesPlane (raise : String → Exn) (notesText : String) (citedChunkIds : List String)
    (uncertainty : NotesUncertainty) : Except Exn Unit := do
  if uncertainty = .noEvidence ∧ ¬ (citedChunkIds = [] ∧ notesText = "") then
    throw (raise
      "notes_uncertainty=\"no_evidence\" requires empty notes_text and cited_chunk_ids")
  if uncertainty ≠ .noEvidence ∧ (citedChunkIds = [] ∨ notesText = "") then
    throw (raise ("a non-empty notes plane requires both notes_text and cited_chunk_ids; " ++
      "an empty notes plane requires notes_uncertainty=\"no_evidence\""))

/-- `parse_notes_plus_model_answer`. -/
def parseNotesPlusModelAnswer (json : JsonModule) (raw : String) (context : AnswerContext) :
    Except Exn NotesPlusModelAnswer := do
  match json.loads raw with
  | .error e => throw (notesPlusModelError ("raw response is not valid JSON: " ++ e.msg))
  | .ok (.dict fields) =>
    let missing := missingFields notesPlusModelFields fields
    if missing ≠ [] then
      throw (notesPlusModelError ("missing required fields: " ++ json.reprList missing))
    let notesText ← stringField notesPlusModelError fields "notes_text"
    let citedChunkIds ← stringListField notesPlusModelError fields "cited_chunk_ids"
    let modelText ← stringField notesPlusModelError fields "model_text"
    let notesUncertainty ←
      markerField json notesPlusModelError fields "notes_uncertainty" validNotesUncertainty
    let made := fabricated context.chunkIds citedChunkIds
    if made ≠ [] then
      throw (notesPlusModelError ("cited_chunk_ids not present in AnswerContext: " ++
        json.reprList made))
    checkNotesPlane notesPlusModelError notesText citedChunkIds notesUncertainty
    pure { notesText, citedChunkIds, modelText, notesUncertainty }
  | .ok _ => throw (notesPlusModelError "expected a JSON object at the top level")

/-- A parsed notes-plus-knowledge answer. -/
structure NotesPlusKnowledgeAnswer where
  notesText : String
  citedChunkIds : List String
  knowledgeText : String
  citedKnowledgeRefs : List String
  modelText : String
  notesUncertainty : NotesUncertainty
  deriving DecidableEq

def notesPlusKnowledgeError (message : String) : Exn :=
  .answerError .notesPlusKnowledge "NotesPlusKnowledgeAnswerError" message

def notesPlusKnowledgeFields : List String :=
  ["notes_text", "cited_chunk_ids", "model_text", "notes_uncertainty", "knowledge_text",
    "cited_knowledge_refs"]

/-- `parse_notes_plus_knowledge_answer`. -/
def parseNotesPlusKnowledgeAnswer (json : JsonModule) (raw : String) (context : AnswerContext)
    (knowledgeRefs : List String) : Except Exn NotesPlusKnowledgeAnswer := do
  match json.loads raw with
  | .error e => throw (notesPlusKnowledgeError ("raw response is not valid JSON: " ++ e.msg))
  | .ok (.dict fields) =>
    let missing := missingFields notesPlusKnowledgeFields fields
    if missing ≠ [] then
      throw (notesPlusKnowledgeError ("missing required fields: " ++ json.reprList missing))
    let notesText ← stringField notesPlusKnowledgeError fields "notes_text"
    let citedChunkIds ← stringListField notesPlusKnowledgeError fields "cited_chunk_ids"
    let knowledgeText ← stringField notesPlusKnowledgeError fields "knowledge_text"
    let citedKnowledgeRefs ←
      stringListField notesPlusKnowledgeError fields "cited_knowledge_refs"
    let modelText ← stringField notesPlusKnowledgeError fields "model_text"
    let notesUncertainty ←
      markerField json notesPlusKnowledgeError fields "notes_uncertainty" validNotesUncertainty
    let made := fabricated context.chunkIds citedChunkIds
    if made ≠ [] then
      throw (notesPlusKnowledgeError ("cited_chunk_ids not present in AnswerContext: " ++
        json.reprList made))
    let madeRefs := fabricated knowledgeRefs citedKnowledgeRefs
    if madeRefs ≠ [] then
      throw (notesPlusKnowledgeError ("cited_knowledge_refs not present in the offered excerpts: " ++
        json.reprList madeRefs))
    checkNotesPlane notesPlusKnowledgeError notesText citedChunkIds notesUncertainty
    if ¬ (knowledgeText = "" ↔ citedKnowledgeRefs = []) then
      throw (notesPlusKnowledgeError ("a non-empty knowledge plane requires both knowledge_text and " ++
        "cited_knowledge_refs; an empty knowledge plane requires both empty"))
    pure { notesText, citedChunkIds, knowledgeText, citedKnowledgeRefs, modelText, notesUncertainty }
  | .ok _ => throw (notesPlusKnowledgeError "expected a JSON object at the top level")

/-! ## The model-only answer -/

def modelOnlyError (message : String) : Exn :=
  .answerError .modelOnly "ModelOnlyAnswerError" message

/-- `parse_model_only_answer`. -/
def parseModelOnlyAnswer (json : JsonModule) (raw : String) : Except Exn String :=
  match json.loads raw with
  | .error e => throw (modelOnlyError ("model-only response is not valid JSON: " ++ e.text))
  | .ok (.dict fields) =>
    match fields.lookup "answer_text" with
    | some (.str s) => pure s
    | value => throw (modelOnlyError ("model-only response lacks a string 'answer_text' field: " ++
        (value.getD .null).typeName))
  | .ok value => throw (modelOnlyError ("model-only response is not a JSON object: " ++ value.typeName))

end DiaryMemory
