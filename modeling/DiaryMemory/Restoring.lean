import DiaryMemory.Durability
import DiaryMemory.JsonRoundTrip
import DiaryMemory.Timestamps

/-!
# What an export holds

The JSON export is `json.dumps(indent=2, ensure_ascii=False)` of one value (`exportValue`), so a
reader of the text gets back the scope, the time and every source row, field by field
(`readExport_serializeJson`). The text export writes them line by line (`TextRecords`).

In every run an export holds exactly the source rows of a community that are left, in the order of
their creation, and a source row is left until a hard delete names it (`export_durable`).
-/

namespace DiaryMemory

open JsonText (Value Layout)

/-! ## The value of an export -/

/-- `_record_dict`. -/
def recordValue (s : SourceMessage) : Value :=
  .dict
    [("source_message_id", .str s.sourceMessageId), ("community_id", .str s.communityId),
     ("author_user_id", .str s.authorUserId), ("external_chat_id", .str s.externalChatId),
     ("external_user_id", .str s.externalUserId),
     ("external_message_id", .str s.externalMessageId), ("edit_seq", .int s.editSeq),
     ("raw_text", .str s.rawText), ("detected_route", .str s.detectedRoute.value),
     ("created_at", .str s.createdAt.isoformat)]

/-- `_envelope_dict`. -/
def envelopeValue (community requester : String) (generatedAt : DateTime) (count : Nat) : Value :=
  .dict
    [("format", .str "json"), ("schema_version", .int 1),
     ("scope", .dict [("community_id", .str community), ("requester_user_id", .str requester)]),
     ("generated_at", .str generatedAt.isoformat), ("record_count", .int count)]

def exportValue (messages : List SourceMessage) (community requester : String)
    (generatedAt : DateTime) : Value :=
  .dict
    [("export", envelopeValue community requester generatedAt messages.length),
     ("records", .list (messages.map recordValue))]

/-- `indent=2, ensure_ascii=False`. -/
def exportLayout : Layout := ⟨false, some 2⟩

/-! ## The text of the value -/

theorem escape_eq_escapeChar (c : Char) : JsonText.escape false c = escapeChar c := by
  have hdigit : JsonText.hexDigit = hexDigit := rfl
  unfold JsonText.escape escapeChar
  split_ifs with hq hb hn hr ht h8 h12 h32 hplain hbmp
  · rfl
  · rfl
  · rfl
  · rfl
  · rfl
  · rfl
  · rfl
  · have hhigh : c.toNat / 4096 % 16 = 0 ∧ c.toNat / 256 % 16 = 0 ∧
        c.toNat / 16 % 16 = c.toNat / 16 := by omega
    rw [JsonText.unicodeEscape, hhigh.1, hhigh.2.1, hhigh.2.2, hdigit]
    rfl
  · rfl
  · exact absurd (.inl rfl) hplain
  · exact absurd (.inl rfl) hplain

theorem toList_jsonString (s : String) : (jsonString s).toList = JsonText.quote false s := by
  have hescape : JsonText.escape false = escapeChar := funext escape_eq_escapeChar
  simp [jsonString, JsonText.quote, hescape]

/-- The text of a value whose items stand `depth + 1` deep. -/
def textAt (depth : Nat) (v : Value) : String := String.ofList (JsonText.write exportLayout depth v)

theorem jsonString_eq (depth : Nat) (s : String) : jsonString s = textAt depth (.str s) := by
  rw [textAt, JsonText.write]
  exact (String.ofList_toList (s := jsonString s)).symm.trans (congrArg _ (toList_jsonString s))

theorem toString_eq (depth : Nat) (n : Int) : toString n = textAt depth (.int n) := by
  have hnat : ∀ m : Nat, m.repr = String.ofList (Nat.toDigits 10 m) := fun m =>
    Nat.repr_eq_ofList_toDigits
  rw [textAt, JsonText.write, Int.toString_eq_repr, Int.repr_eq_if, JsonText.writeInt]
  by_cases hneg : n < 0
  · rw [if_pos hneg, if_neg (by omega), show (-n).toNat = n.natAbs by omega, hnat]
    exact (@String.ofList_append ['-'] _).symm
  · rw [if_neg hneg, if_pos (by omega), show n.toNat = n.natAbs by omega, hnat]

/-- Items that are joined, as those of a list and of an object are. -/
theorem toList_joined {α : Type} {text : α → String} {chars : α → List Char}
    {rest : List α → List Char} {indent : List Char} (hnil : rest [] = [])
    (hcons : ∀ a as, rest (a :: as) = ',' :: '\n' :: indent ++ chars a ++ rest as)
    (htext : ∀ a, (text a).toList = indent ++ chars a) (a : α) (as : List α) :
    (",\n".intercalate ((a :: as).map text)).toList = indent ++ chars a ++ rest as := by
  induction as generalizing a with
  | nil => simp [hnil, htext]
  | cons b as ih =>
    rw [List.map_cons, List.map_cons, String.intercalate_cons_cons, String.toList_append,
      String.toList_append, ← List.map_cons, ih b, hcons, htext]
    simp

/-- An object that is not empty. -/
theorem jsonObject_eq (depth : Nat) {indent : String}
    (hindent : indent.toList = List.replicate (2 * depth) ' ') (f : String × Value)
    (fields : List (String × Value)) :
    jsonObject indent ((f :: fields).map fun f => (f.1, textAt (depth + 1) f.2)) =
      textAt depth (.dict (f :: fields)) := by
  have hinner : indent.toList ++ [' ', ' '] = List.replicate (2 * (depth + 1)) ' ' := by
    rw [hindent, Nat.mul_add, List.replicate_add]
    rfl
  have hjoined := @toList_joined (String × Value)
    (fun f => indent ++ "  " ++ jsonString f.1 ++ ": " ++ textAt (depth + 1) f.2)
    (fun f => JsonText.quote false f.1 ++ [':', ' '] ++ JsonText.write exportLayout (depth + 1) f.2)
    (JsonText.writeFields exportLayout (depth + 1)) (List.replicate (2 * (depth + 1)) ' ') rfl
    (fun f fields => by simp [JsonText.writeFields, Layout.comma, Layout.gap, exportLayout])
    (fun f => by simp [← hinner, toList_jsonString, textAt]) f fields
  refine String.toList_injective ?_
  rw [jsonObject, List.map_map]
  simp only [String.toList_append, Function.comp_def, hjoined]
  simp [textAt, JsonText.write, Layout.gap, exportLayout, hindent]

/-- A list that is not empty, the records of an export. -/
theorem recordsJson_eq {messages : List SourceMessage}
    (h : ∀ s, recordJson s = textAt 2 (recordValue s)) :
    recordsJson messages = textAt 1 (.list (messages.map recordValue)) := by
  unfold recordsJson
  cases messages with
  | nil => rfl
  | cons s messages =>
    have hjoined := @toList_joined SourceMessage (fun s => "    " ++ recordJson s)
      (fun s => JsonText.write exportLayout 2 (recordValue s))
      (fun messages => JsonText.writeItems exportLayout 2 (messages.map recordValue))
      (List.replicate 4 ' ') rfl
      (fun s messages => by simp [JsonText.writeItems, Layout.comma, Layout.gap, exportLayout])
      (fun s => by simp [h, textAt]) s messages
    refine String.toList_injective ?_
    rw [if_neg (by simp)]
    simp only [String.toList_append, hjoined]
    simp [textAt, JsonText.write, Layout.gap, exportLayout]

theorem recordJson_eq (s : SourceMessage) : recordJson s = textAt 2 (recordValue s) := by
  rw [recordValue, ← @jsonObject_eq 2 "    " rfl]
  simp [recordJson, jsonString_eq 3, toString_eq 3]

theorem envelopeJson_eq (community requester : String) (generatedAt : DateTime) (count : Nat) :
    envelopeJson community requester generatedAt count =
      textAt 1 (envelopeValue community requester generatedAt count) := by
  have hcount : toString count = textAt 2 (.int count) := toString_eq 2 count
  have hversion : "1" = textAt 2 (.int 1) := toString_eq 2 1
  have hscope : jsonObject "    " [("community_id", jsonString community),
      ("requester_user_id", jsonString requester)] =
        textAt 2 (.dict [("community_id", .str community), ("requester_user_id", .str requester)]) := by
    rw [← @jsonObject_eq 2 "    " rfl]
    simp [jsonString_eq 3]
  rw [envelopeJson, hscope, hcount, hversion, envelopeValue, ← @jsonObject_eq 1 "  " rfl]
  simp [jsonString_eq 2]

/-- The text of an export is that of its value. -/
theorem serializeJson_eq (messages : List SourceMessage) (community requester : String)
    (generatedAt : DateTime) : serializeJson messages community requester generatedAt =
      JsonText.dumps exportLayout (exportValue messages community requester generatedAt) := by
  change _ = textAt 0 _
  rw [serializeJson, envelopeJson_eq, recordsJson_eq recordJson_eq, exportValue,
    ← @jsonObject_eq 0 "" rfl]
  rfl

/-! ## Reading -/

/-- A character, and `n` digits behind it. -/
def fieldAfter (c : Char) (n : Nat) (cs : List Char) : Option (Nat × List Char) :=
  if cs.head? = some c then parseDigits n 0 cs.tail else none

/-- `datetime.fromisoformat`, of the texts `isoformat` gives. -/
def DateTime.fromisoformat (text : String) : Option DateTime := do
  let date ← Date.fromisoformat (String.ofList (text.toList.take 10))
  let (hour, cs) ← fieldAfter 'T' 2 (text.toList.drop 10)
  let (minute, cs) ← fieldAfter ':' 2 cs
  let (second, cs) ← fieldAfter ':' 2 cs
  let (microsecond, cs) := (fieldAfter '.' 6 cs).getD (0, cs)
  if h : (hour < 24 ∧ minute < 60 ∧ second < 60 ∧ microsecond < 1000000) ∧
      cs = ['+', '0', '0', ':', '0', '0'] then
    some ⟨date, hour, minute, second, microsecond, h.1⟩
  else none

theorem DateTime.fromisoformat_isoformat (t : DateTime) :
    DateTime.fromisoformat t.isoformat = some t := by
  obtain ⟨date, hour, minute, second, microsecond, hvalid⟩ := t
  obtain ⟨hh, hm, hs, hu⟩ := hvalid
  have hfield : ∀ (c : Char) (width n : Nat) (cs : List Char), n < 10 ^ width →
      fieldAfter c width (c :: (padded width n ++ cs)) = some (n, cs) := by
    intro c width n cs hn
    simp [fieldAfter, parseDigits_padded width 0 n hn]
  have hfraction : (fieldAfter '.' 6 (fractionChars microsecond ++ ['+', '0', '0', ':', '0', '0'])).getD
      (0, fractionChars microsecond ++ ['+', '0', '0', ':', '0', '0']) =
        (microsecond, ['+', '0', '0', ':', '0', '0']) := by
    unfold fractionChars
    split
    · next hzero =>
      rw [hzero]
      rfl
    · rw [List.cons_append, hfield '.' 6 microsecond _ (by omega)]
      rfl
  have htext : (DateTime.isoformat ⟨date, hour, minute, second, microsecond, hh, hm, hs, hu⟩).toList =
      date.isoformat.toList ++ 'T' :: (padded 2 hour ++ ':' :: (padded 2 minute ++ ':' ::
        (padded 2 second ++ (fractionChars microsecond ++ ['+', '0', '0', ':', '0', '0'])))) := by
    rw [DateTime.toList_isoformat, DiaryMemory.toList_isoformat, isoChars]
    simp
  have hlength : date.isoformat.toList.length = 10 := by
    simp [DiaryMemory.toList_isoformat, isoChars]
  rw [DateTime.fromisoformat, htext, List.take_append_of_le_length hlength.ge,
    List.drop_append_of_le_length hlength.ge, ← hlength, List.take_length, List.drop_length,
    List.nil_append, String.ofList_toList, DiaryMemory.fromisoformat_isoformat]
  simp only [Option.bind_eq_bind, Option.bind_some, hfield 'T' 2 hour _ (by omega),
    hfield ':' 2 minute _ (by omega), hfield ':' 2 second _ (by omega), hfraction]
  rw [dif_pos ⟨⟨hh, hm, hs, hu⟩, trivial⟩]

/-- `RouteKind(value)`. -/
def RouteKind.ofValue? (value : String) : Option RouteKind :=
  [start, help, note, ask, chat, draft, drafts, export_, sources, delete, clarify, unknown].find?
    (·.value = value)

theorem RouteKind.ofValue?_value (route : RouteKind) : ofValue? route.value = some route := by
  cases route <;> decide

/-- What an export says. -/
structure RawExport where
  community : String
  requester : String
  generatedAt : DateTime
  records : List SourceMessage
  deriving DecidableEq

/-- A source row, from its record. -/
def readRecord (v : Value) : Option SourceMessage := do
  let sourceMessageId ← v.strAt "source_message_id"
  let communityId ← v.strAt "community_id"
  let authorUserId ← v.strAt "author_user_id"
  let externalChatId ← v.strAt "external_chat_id"
  let externalUserId ← v.strAt "external_user_id"
  let externalMessageId ← v.strAt "external_message_id"
  let editSeq ← v.intAt "edit_seq"
  let rawText ← v.strAt "raw_text"
  let detectedRoute ← (v.strAt "detected_route").bind RouteKind.ofValue?
  let createdAt ← (v.strAt "created_at").bind DateTime.fromisoformat
  some { sourceMessageId, communityId, authorUserId, externalChatId, externalUserId
         externalMessageId, editSeq, rawText, detectedRoute, createdAt }

/-- An export of this format and version whose records are all there. -/
def readExport (text : String) : Option RawExport := do
  let document ← JsonText.loads text
  let envelope ← document.field? "export"
  let scope ← envelope.field? "scope"
  let community ← scope.strAt "community_id"
  let requester ← scope.strAt "requester_user_id"
  let generatedAt ← (envelope.strAt "generated_at").bind DateTime.fromisoformat
  let records ← ((document.field? "records").bind Value.list?).bind (List.mapM readRecord)
  if envelope.strAt "format" = some "json" ∧ envelope.intAt "schema_version" = some 1 ∧
      envelope.intAt "record_count" = some records.length then
    some { community, requester, generatedAt, records }
  else none

theorem readRecord_recordValue (s : SourceMessage) : readRecord (recordValue s) = some s := by
  have hid : (recordValue s).strAt "source_message_id" = some s.sourceMessageId := rfl
  have hcommunity : (recordValue s).strAt "community_id" = some s.communityId := rfl
  have hauthor : (recordValue s).strAt "author_user_id" = some s.authorUserId := rfl
  have hchat : (recordValue s).strAt "external_chat_id" = some s.externalChatId := rfl
  have huser : (recordValue s).strAt "external_user_id" = some s.externalUserId := rfl
  have hmessage : (recordValue s).strAt "external_message_id" = some s.externalMessageId := rfl
  have hseq : (recordValue s).intAt "edit_seq" = some s.editSeq := rfl
  have htext : (recordValue s).strAt "raw_text" = some s.rawText := rfl
  have hroute : (recordValue s).strAt "detected_route" = some s.detectedRoute.value := rfl
  have hcreated : (recordValue s).strAt "created_at" = some s.createdAt.isoformat := rfl
  simp only [readRecord, hid, hcommunity, hauthor, hchat, huser, hmessage, hseq, htext, hroute,
    hcreated, Option.bind_eq_bind, Option.bind_some, RouteKind.ofValue?_value,
    DateTime.fromisoformat_isoformat]

/-- Every field of every row is read back. -/
theorem readExport_serializeJson (messages : List SourceMessage) (community requester : String)
    (generatedAt : DateTime) : readExport (serializeJson messages community requester generatedAt) =
      some ⟨community, requester, generatedAt, messages⟩ := by
  have hrecords : (messages.map recordValue).mapM readRecord = some messages := by
    induction messages with
    | nil => rfl
    | cons s messages ih =>
      rw [List.map_cons, List.mapM_cons, readRecord_recordValue, ih]
      rfl
  have henvelope : (exportValue messages community requester generatedAt).field? "export" =
      some (envelopeValue community requester generatedAt messages.length) := rfl
  have hlist : ((exportValue messages community requester generatedAt).field? "records").bind
      Value.list? = some (messages.map recordValue) := rfl
  have hscope : (envelopeValue community requester generatedAt messages.length).field? "scope" =
      some (.dict [("community_id", .str community), ("requester_user_id", .str requester)]) := rfl
  have hcommunity : (Value.dict [("community_id", .str community),
      ("requester_user_id", .str requester)]).strAt "community_id" = some community := rfl
  have hrequester : (Value.dict [("community_id", .str community),
      ("requester_user_id", .str requester)]).strAt "requester_user_id" = some requester := rfl
  have htime : (envelopeValue community requester generatedAt messages.length).strAt "generated_at" =
      some generatedAt.isoformat := rfl
  rw [readExport, serializeJson_eq, JsonText.loads_dumps]
  simp only [henvelope, hlist, hscope, hcommunity, hrequester, htime, hrecords,
    Option.bind_eq_bind, Option.bind_some, DateTime.fromisoformat_isoformat]
  rw [if_pos ⟨rfl, rfl, rfl⟩]

/-! ## Text -/

/-- Lines, each with its end. -/
def textLines : List String → String
  | [] => ""
  | line :: lines => line ++ "\n" ++ textLines lines

/-- Records, an empty line before each : a line for each field, then the raw text. -/
inductive TextRecords : List SourceMessage → String → Prop where
  | nil : TextRecords [] ""
  | cons {s : SourceMessage} {messages : List SourceMessage} {rest : String}
      (h : TextRecords messages rest) :
      TextRecords (s :: messages) (textLines
        ["", "source_message_id: " ++ s.sourceMessageId, "created_at: " ++ s.createdAt.isoformat,
          "detected_route: " ++ s.detectedRoute.value, "external_chat_id: " ++ s.externalChatId,
          "external_message_id: " ++ s.externalMessageId, "edit_seq: " ++ toString s.editSeq,
          "author_user_id: " ++ s.authorUserId, "raw_text:", s.rawText] ++ rest)

/-- The text says what the export does : a JSON text to its reader, a plain one line by line. -/
def RawExport.WrittenIn (e : RawExport) (text : String) : ExportFormat → Prop
  | .json => readExport text = some e
  | .txt => ∃ records, TextRecords e.records records ∧
    text = textLines ["# raw export", "# format: txt", "# schema_version: 1",
      "# community_id: " ++ e.community, "# requester_user_id: " ++ e.requester,
      "# generated_at: " ++ e.generatedAt.isoformat,
      "# record_count: " ++ toString e.records.length] ++ records

theorem textLines_cons (line : String) (lines : List String) :
    textLines (line :: lines) = "\n".intercalate (line :: lines) ++ "\n" := by
  induction lines generalizing line with
  | nil => rw [textLines, textLines, String.intercalate_singleton, String.append_empty]
  | cons next lines ih => rw [textLines, ih, String.intercalate_cons_cons, ← String.append_assoc]

/-- The parts of a text export behind its head. -/
def txtParts (messages : List SourceMessage) : String :=
  "\n".intercalate ("" :: messages.flatMap fun s => [txtBlock s, ""])

theorem txtParts_cons (s : SourceMessage) (messages : List SourceMessage) :
    txtParts (s :: messages) = textLines ["", txtBlock s] ++ txtParts messages := by
  rw [txtParts, List.flatMap_cons, List.cons_append, List.cons_append, List.nil_append,
    String.intercalate_cons_cons, String.intercalate_cons_cons, txtParts]
  simp [textLines, String.append_assoc]

theorem textRecords_txtParts (messages : List SourceMessage) :
    TextRecords messages (txtParts messages) := by
  induction messages with
  | nil => exact .nil
  | cons s messages ih =>
    have hblock : ∀ line lines, textLines ["", "\n".intercalate (line :: lines)] =
        textLines ("" :: line :: lines) := by
      intro line lines
      rw [textLines, textLines, textLines, textLines, textLines_cons, String.append_empty]
    rw [txtParts_cons, txtBlock, hblock]
    exact .cons ih

/-- Lines, and then records, end with a line. -/
theorem getLast?_records (line : String) (lines : List String) {messages : List SourceMessage}
    {records : String} (h : TextRecords messages records) :
    (textLines (line :: lines) ++ records).toList.getLast? = some '\n' := by
  have happend : ∀ {a b : String}, b.toList.getLast? = some '\n' →
      (a ++ b).toList.getLast? = some '\n' := by
    intro a b hb
    rw [String.toList_append, List.getLast?_append, hb]
    rfl
  induction h generalizing line lines with
  | nil =>
    rw [String.append_empty, textLines_cons]
    exact happend rfl
  | cons h ih => exact happend (ih _ _)

theorem writtenIn_serializeTxt (messages : List SourceMessage) (community requester : String)
    (generatedAt : DateTime) : RawExport.WrittenIn ⟨community, requester, generatedAt, messages⟩
      (serializeTxt messages community requester generatedAt) .txt := by
  have hrecords := textRecords_txtParts messages
  have hlast := getLast?_records "# raw export" ["# format: txt", "# schema_version: 1",
    "# community_id: " ++ community, "# requester_user_id: " ++ requester,
    "# generated_at: " ++ generatedAt.isoformat, "# record_count: " ++ toString messages.length]
    hrecords
  refine ⟨txtParts messages, hrecords, ?_⟩
  rw [textLines_cons] at hlast ⊢
  rw [serializeTxt]
  dsimp only
  rw [String.intercalate_cons_cons]
  exact if_pos hlast

/-! ## Exports -/

/-- The document holds the source rows of the community, each once, oldest first. -/
structure ExportPayload.Lists (payload : ExportPayload) (T : Tables) (community requester : String)
    (format : ExportFormat) (messages : List SourceMessage) : Prop where
  complete : ∀ s, s ∈ messages ↔ s ∈ T.sourceMessages ∧ s.communityId = community
  nodup : messages.Nodup
  sorted : messages.Pairwise fun s s' => s.recency < s'.recency
  content : RawExport.WrittenIn ⟨community, requester, payload.generatedAt, messages⟩
    payload.content format
  count : payload.recordCount = messages.length

theorem SourceMessage.recency_ne {s s' : SourceMessage}
    (h : s.sourceMessageId ≠ s'.sourceMessageId) : s.recency ≠ s'.recency := fun he =>
  h (congrArg Prod.snd (toLex_inj.mp he))

theorem Tables.listSourceMessages_sorted (T : Tables) (community : String) :
    (T.listSourceMessages community none).Nodup ∧
      (T.listSourceMessages community none).Pairwise fun s s' => s.recency < s'.recency := by
  set rows := T.sourceMessages.rows.filter fun s => s.communityId = community with hrows
  have hperm : (oldestFirst SourceMessage.recency rows).Perm rows := List.perm_insertionSort _ rows
  have hsorted : (oldestFirst SourceMessage.recency rows).Pairwise fun s s' =>
      s.recency ≤ s'.recency := List.pairwise_insertionSort _ rows
  have hids : (rows.map SourceMessage.sourceMessageId).Nodup :=
    T.sourceMessages.nodup.sublist (List.filter_sublist.map _)
  have hids' : (oldestFirst SourceMessage.recency rows).Pairwise fun s s' =>
      s.sourceMessageId ≠ s'.sourceMessageId :=
    List.pairwise_map.mp ((hperm.map _).nodup_iff.mpr hids)
  refine ⟨hperm.nodup_iff.mpr (List.Nodup.of_map _ hids), ?_⟩
  exact (hsorted.and hids').imp fun h => lt_of_le_of_ne h.1 (SourceMessage.recency_ne h.2)

/-- The document of either format. -/
theorem writtenIn_exportContent (messages : List SourceMessage) (community requester : String)
    (generatedAt : DateTime) (format : ExportFormat) :
    RawExport.WrittenIn ⟨community, requester, generatedAt, messages⟩
      (exportContent messages community requester generatedAt format) format := by
  cases format with
  | json => exact readExport_serializeJson messages community requester generatedAt
  | txt => exact writtenIn_serializeTxt messages community requester generatedAt

/-- In every run, whatever fails, a source row that any call found is still there, unless a
hard delete has named it since; and an export lists exactly the source rows of its
community that are there. -/
theorem export_durable (kind : StoreKind) (engine : SearchEngine) (env : Env)
    (ops : List Operation) (community requester : String) (format : ExportFormat) :
    let w := runAll (kind.backend engine) env (World.initial kind engine) ops
    (∀ i e, w.log[i]? = some e → ∀ s ∈ e.before.sourceMessages, s ∈ w.rows.sourceMessages ∨
      s.sourceMessageId ∈ w.removalsSince i) ∧
    match ((exportRaw community requester format).exec (kind.backend engine) env w).1 with
    | .ok payload => ∃ messages, payload.Lists w.rows community requester format messages
    | .error _ => community = "" ∨ kind = .sql .sqlite ∨
      ∃ n, (env.storeFails n (.listSourceMessages community none)).isSome := by
  intro w
  have hs : Sound env w := sound_run env ops
  refine ⟨fun i e hi => (evolves_run env ops hi).sources, ?_⟩
  obtain ⟨-, -, hend⟩ := Proc.exec_of_wp hs (wp_exportRaw (P := QuietCall) community requester format
    fun _ _ h => h)
  split
  · next payload hok =>
    rw [hok] at hend
    obtain ⟨-, hcontent, hcount⟩ := hend
    obtain ⟨hnodup, hsorted⟩ := w.rows.listSourceMessages_sorted community
    refine ⟨_, fun s => ?_, hnodup, hsorted, ?_, hcount⟩
    · simp [Tables.listSourceMessages, takeLimit]
    · rw [hcontent]
      exact writtenIn_exportContent _ community requester payload.generatedAt format
  · next e herror =>
    rw [herror] at hend
    exact hend.2

end DiaryMemory
