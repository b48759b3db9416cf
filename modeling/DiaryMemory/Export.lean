import DiaryMemory.World

/-!
# The raw export

`ExportService.export` reads the source rows of a community and renders them as one
document, JSON (`serializeJson`) or text (`serializeTxt`), with the scope and the number
of records at its head.
-/

namespace DiaryMemory

inductive ExportFormat where
  | json | txt
  deriving DecidableEq

/-- `ExportFormat.value`. -/
def ExportFormat.value : ExportFormat → String
  | json => "json"
  | txt => "txt"

/-- `RouteKind.value`. -/
def RouteKind.value : RouteKind → String
  | start => "start"
  | help => "help"
  | note => "note"
  | ask => "ask"
  | chat => "chat"
  | draft => "draft"
  | drafts => "drafts"
  | export_ => "export"
  | sources => "sources"
  | delete => "delete"
  | clarify => "clarify"
  | unknown => "unknown"

/-- `%Y%m%dT%H%M%SZ`. -/
def DateTime.fileStamp (t : DateTime) : String :=
  String.ofList (padded 4 t.date.year ++ padded 2 t.date.month ++ padded 2 t.date.day ++
    'T' :: padded 2 t.hour ++ padded 2 t.minute ++ padded 2 t.second ++ ['Z'])

/-- A rendered export. -/
structure ExportPayload where
  content : String
  filename : String
  mediaType : String
  format : ExportFormat
  recordCount : Nat
  generatedAt : DateTime
  communityId : String
  requesterUserId : String
  deriving DecidableEq

/-! ## JSON -/

/-- One lower-case hexadecimal digit. -/
def hexDigit (n : Nat) : Char := if n < 10 then Char.ofNat (48 + n) else Char.ofNat (87 + n)

/-- A character inside a JSON string; `ensure_ascii` is off. -/
def escapeChar (c : Char) : List Char :=
  if c = '"' then ['\\', '"']
  else if c = '\\' then ['\\', '\\']
  else if c = '\n' then ['\\', 'n']
  else if c = '\r' then ['\\', 'r']
  else if c = '\t' then ['\\', 't']
  else if c.toNat = 8 then ['\\', 'b']
  else if c.toNat = 12 then ['\\', 'f']
  else if c.toNat < 32 then ['\\', 'u', '0', '0', hexDigit (c.toNat / 16), hexDigit (c.toNat % 16)]
  else [c]

/-- A JSON string. -/
def jsonString (s : String) : String :=
  "\"" ++ String.ofList (s.toList.flatMap escapeChar) ++ "\""

/-- The members of an object at an indentation, as `json.dumps(indent=2)` lays them
out. -/
def jsonObject (indent : String) (members : List (String × String)) : String :=
  "\x7b\n" ++ ",\n".intercalate (members.map fun m =>
    indent ++ "  " ++ jsonString m.1 ++ ": " ++ m.2) ++ "\n" ++ indent ++ "\x7d"

/-- `_record_dict`. -/
def recordJson (s : SourceMessage) : String :=
  jsonObject "    "
    [("source_message_id", jsonString s.sourceMessageId), ("community_id", jsonString s.communityId),
     ("author_user_id", jsonString s.authorUserId),
     ("external_chat_id", jsonString s.externalChatId),
     ("external_user_id", jsonString s.externalUserId),
     ("external_message_id", jsonString s.externalMessageId),
     ("edit_seq", toString s.editSeq), ("raw_text", jsonString s.rawText),
     ("detected_route", jsonString s.detectedRoute.value),
     ("created_at", jsonString s.createdAt.isoformat)]

/-- The records of a document; an empty list stays on its line. -/
def recordsJson (messages : List SourceMessage) : String :=
  if messages = [] then "[]"
  else "[\n" ++ ",\n".intercalate (messages.map fun s => "    " ++ recordJson s) ++ "\n  ]"

/-- `_envelope_dict`. -/
def envelopeJson (community requester : String) (generatedAt : DateTime) (count : Nat) : String :=
  jsonObject "  "
    [("format", jsonString "json"), ("schema_version", "1"),
     ("scope", jsonObject "    "
       [("community_id", jsonString community), ("requester_user_id", jsonString requester)]),
     ("generated_at", jsonString generatedAt.isoformat), ("record_count", toString count)]

def serializeJson (messages : List SourceMessage) (community requester : String)
    (generatedAt : DateTime) : String :=
  jsonObject ""
    [("export", envelopeJson community requester generatedAt messages.length),
     ("records", recordsJson messages)]

/-! ## Text -/

/-- `_txt_block`. -/
def txtBlock (s : SourceMessage) : String :=
  "\n".intercalate
    ["source_message_id: " ++ s.sourceMessageId, "created_at: " ++ s.createdAt.isoformat,
     "detected_route: " ++ s.detectedRoute.value, "external_chat_id: " ++ s.externalChatId,
     "external_message_id: " ++ s.externalMessageId, "edit_seq: " ++ toString s.editSeq,
     "author_user_id: " ++ s.authorUserId, "raw_text:", s.rawText]

def serializeTxt (messages : List SourceMessage) (community requester : String)
    (generatedAt : DateTime) : String :=
  let header := "\n".intercalate
    ["# raw export", "# format: txt", "# schema_version: 1", "# community_id: " ++ community,
     "# requester_user_id: " ++ requester, "# generated_at: " ++ generatedAt.isoformat,
     "# record_count: " ++ toString messages.length]
  let text := "\n".intercalate
    (header :: "" :: messages.flatMap fun s => [txtBlock s, ""])
  if text.toList.getLast? = some '\n' then text else text ++ "\n"

/-! ## The service -/

/-- `ExportService.export`. -/
def exportRaw (community requester : String) (format : ExportFormat) : Proc ExportPayload := do
  if community = "" then throw (.valueError "community_id is required (Runtime invariant R-3)")
  let generatedAt ← Proc.now
  let messages ← Proc.listSourceMessages community none
  let (content, mediaType) := match format with
    | .json => (serializeJson messages community requester generatedAt, "application/json")
    | .txt => (serializeTxt messages community requester generatedAt, "text/plain; charset=utf-8")
  pure { content, mediaType, format, generatedAt
         filename := "raw_export_" ++ community ++ "_" ++ generatedAt.fileStamp ++ "." ++ format.value
         recordCount := messages.length, communityId := community, requesterUserId := requester }

end DiaryMemory
