import DiaryMemory.AuthorDisplay
import DiaryMemory.Commands
import DiaryMemory.Dispatcher
import DiaryMemory.DraftsPacking
import DiaryMemory.Pact

/-!
# The Telegram webhook

`telegramWebhook` serves one update : it checks the secret, builds the message the services
receive, dispatches it, keeps the author snapshot of a note or draft, and replies. A reply text
is the response itself; a document, the drafts and the chunks of `/sources` are sent to the chat
by calls of their own, the drafts and the chunks packed into messages, and a message that can
not be delivered ends the sending with a notice (`deliver`).

The calls of the webhook (`EdgeCall`) are those of the services, the snapshots and source rows
its renderers read, and what it sends. `Edge` is the state of the system with the snapshots and
all attempts to send; `serveEdge` answers one call.
-/

namespace DiaryMemory

/-! ## Updates -/

structure TelegramUser where
  id : Int
  username : Option String := none
  firstName : Option String := none
  deriving DecidableEq

/-- A message with its chat, and the message it replies to. -/
structure TelegramMessage where
  messageId : Int
  date : Int
  editDate : Option Int := none
  chatId : Int
  sender : TelegramUser
  text : Option String := none
  replyToMessageId : Option Int := none
  deriving DecidableEq

structure TelegramUpdate where
  message : Option TelegramMessage := none
  editedMessage : Option TelegramMessage := none
  deriving DecidableEq

/-- `update.message or update.edited_message`. -/
def TelegramUpdate.received (update : TelegramUpdate) : Option TelegramMessage :=
  update.message <|> update.editedMessage

/-! ## The time of a message -/

/-- The day `n` days after 0001-01-01, in the years the calendar has : cycles of 400, 100 and 4
years, then years; the last day of a cycle belongs to the year before. -/
def Date.ofDays? (n : Nat) : Option Date :=
  let n400 := n / 146097
  let n100 := n % 146097 / 36524
  let n4 := n % 146097 % 36524 / 1461
  let n1 := n % 146097 % 36524 % 1461 / 365
  let year := n400 * 400 + n100 * 100 + n4 * 4 + n1 + 1
  if n1 = 4 ∨ n100 = 4 then ofYMD? (year - 1) 12 31
  else
    let md := walkMonths year 11 1 (n % 146097 % 36524 % 1461 % 365)
    ofYMD? year md.1 md.2

/-- A second of a day. -/
def Date.atSecond (date : Date) (second : Nat) (h : second < 86400) : DateTime :=
  ⟨date, second / 3600, second / 60 % 60, second % 60, 0, by omega⟩

/-- `datetime.fromtimestamp(timestamp, tz=UTC)`, 719162 days after 0001-01-01 being 1970-01-01. -/
def DateTime.fromTimestamp? (timestamp : Int) : Option DateTime :=
  let days := timestamp / 86400 + 719162
  if days < 0 then none
  else (Date.ofDays? days.toNat).map fun date =>
    date.atSecond (timestamp % 86400).toNat (by omega)

/-- What it raises where there is no such time : the timestamp is not a `time_t`, its year is not a
C `int`, or it is not one of a date. -/
def timestampError (timestamp : Int) : Exn :=
  if timestamp < -2 ^ 63 ∨ 2 ^ 63 ≤ timestamp then .other "OverflowError"
  else if timestamp < -67768040609740800 ∨ 67768036191676800 ≤ timestamp then .other "OSError"
  else .other "ValueError"

example : DateTime.fromTimestamp? 1778284800 = some .mayNinth := by decide
example : DateTime.fromTimestamp? (-62135596801) = none := by decide
example : (DateTime.fromTimestamp? 951782399).map DateTime.isoformat =
    some "2000-02-28T23:59:59+00:00" := by decide
example : timestampError (10 ^ 20) = .other "OverflowError" := by decide

/-! ## Messages -/

/-- `resolve_community_id`. -/
def resolveCommunityId (externalChatId : String) : String := externalChatId

/-- `resolve_subject_id`. -/
def resolveSubjectId (_communityId : String) : Option String := none

/-- The message the services receive. -/
def TelegramMessage.inbound (message : TelegramMessage) (receivedAt : DateTime) : InboundMessage :=
  let externalChatId := toString message.chatId
  let communityId := resolveCommunityId externalChatId
  InboundMessage.withText
    { externalMessageId := toString message.messageId, externalChatId
      externalUserId := toString message.sender.id, communityId, route := .unknown, receivedAt
      editSeq := message.editDate.getD 0, subjectId := resolveSubjectId communityId
      replyToExternalMessageId := message.replyToMessageId.map toString } message.text

/-- `lifecycle_for`. -/
inductive Lifecycle where
  | draft | note | query | other
  deriving DecidableEq

def lifecycleFor : RouteKind → Lifecycle
  | .draft => .draft
  | .note => .note
  | .ask => .query
  | _ => .other

/-! ## Calls -/

/-- What the adapter sends to a chat by a call of its own. -/
inductive Parcel where
  | message (text : String)
  | document (filename content mediaType caption : String)
  deriving DecidableEq

inductive EdgeCall where
  | core (c : Call)
  | saveAuthorDisplayInput (row : AuthorDisplayInput)
  | getAuthorDisplayInput (key : MessageKey)
  | getSourceMessage (id community : String)
  | send (chatId : String) (parcel : Parcel)
  deriving DecidableEq

/-- What such a call returns; a port of the store or the host may raise instead. -/
def EdgeReply : EdgeCall → Type
  | .core c => Reply c
  | .saveAuthorDisplayInput _ | .send .. => Except Exn Unit
  | .getAuthorDisplayInput _ => Except Exn (Option AuthorDisplayInput)
  | .getSourceMessage .. => Except Exn (Option SourceMessage)

/-- A procedure of the adapter. -/
abbrev EdgeProc (α : Type) := ExceptT Exn (Prog EdgeCall EdgeReply) α

namespace EdgeProc

/-- A service procedure. -/
def core {α : Type} (p : Proc α) : EdgeProc α :=
  attempt (p.run.hoist fun c => Prog.perform (R := EdgeReply) (.core c))

def saveAuthorDisplayInput (row : AuthorDisplayInput) : EdgeProc Unit :=
  attempt (Prog.perform (R := EdgeReply) (.saveAuthorDisplayInput row))

def getAuthorDisplayInput (key : MessageKey) : EdgeProc (Option AuthorDisplayInput) :=
  attempt (Prog.perform (R := EdgeReply) (.getAuthorDisplayInput key))

def getSourceMessage (id community : String) : EdgeProc (Option SourceMessage) :=
  attempt (Prog.perform (R := EdgeReply) (.getSourceMessage id community))

def send (chatId : String) (parcel : Parcel) : EdgeProc Unit :=
  attempt (Prog.perform (R := EdgeReply) (.send chatId parcel))

end EdgeProc

/-! ## Rendering -/

/-- The name for a snapshot that may be missing. -/
def authorName (snapshot : Option AuthorDisplayInput) (authorUserId : String) : String :=
  resolveAuthorDisplayName (snapshot.bind AuthorDisplayInput.username)
    (snapshot.bind AuthorDisplayInput.firstName) authorUserId

/-- `resolve_chunk_author_display`. -/
def resolveChunkAuthorDisplay (chunk : EventChunk) (communityId : String) : EdgeProc String := do
  match ← EdgeProc.getSourceMessage chunk.sourceMessageId communityId with
  | none => pure (authorName none chunk.authorUserId)
  | some source =>
    let snapshot ← EdgeProc.getAuthorDisplayInput source.messageKey
    pure (authorName snapshot chunk.authorUserId)

/-- `_resolve_source_author_display`. -/
def resolveSourceAuthorDisplay (source : SourceMessage) (communityId : String) : EdgeProc String :=
  if source.communityId = communityId then do
    let snapshot ← EdgeProc.getAuthorDisplayInput source.messageKey
    pure (authorName snapshot source.authorUserId)
  else pure (authorName none source.authorUserId)

/-- A block of `/sources`. -/
def sourceBlock (chunk : EventChunk) (index total : Nat) (author : String) : String :=
  "[" ++ chunk.noteDate.isoformat ++ "] (" ++ toString index ++ "/" ++ toString total ++ ")\n— " ++
    author ++ "\n\n" ++ chunk.chunkText

/-- `render_source_block`. -/
def renderSourceBlock (chunk : EventChunk) (index total : Nat) (communityId : String) :
    EdgeProc String := do
  let author ← resolveChunkAuthorDisplay chunk communityId
  pure (sourceBlock chunk index total author)

/-- A block of `/drafts`. -/
def draftBlock (draft : SourceMessage) (author : String) : String :=
  "📝 " ++ draft.createdAt.date.isoformat ++ " · " ++ author ++ "\n\n" ++ draft.rawText

/-- `_render_draft_block`. -/
def renderDraftBlock (draft : SourceMessage) (communityId : String) : EdgeProc String := do
  let author ← resolveSourceAuthorDisplay draft communityId
  pure (draftBlock draft author)

/-- The blocks of `/sources`, numbered from `index` on. -/
def renderSources (communityId : String) (total : Nat) :
    Nat → List EventChunk → EdgeProc (List String)
  | _, [] => pure []
  | index, chunk :: chunks => do
    let block ← renderSourceBlock chunk index total communityId
    let blocks ← renderSources communityId total (index + 1) chunks
    pure (block :: blocks)

def renderDrafts (communityId : String) : List SourceMessage → EdgeProc (List String)
  | [] => pure []
  | draft :: drafts => do
    let block ← renderDraftBlock draft communityId
    let blocks ← renderDrafts communityId drafts
    pure (block :: blocks)

/-! ## Delivery -/

/-- The reply that the response body carries, with `int(chat_id)`. -/
structure SendMessage where
  chatId : Int
  text : String
  deriving DecidableEq

/-- `build_send_message_payload`. -/
def buildSendMessagePayload (chatId text : String) : Except Exn SendMessage :=
  match chatId.toInt? with
  | none => throw (.valueError ("invalid literal for int() with base 10: '" ++ chatId ++ "'"))
  | some chatId => pure ⟨chatId, text⟩

def EdgeProc.ofExcept {α : Type} : Except Exn α → EdgeProc α
  | .ok a => pure a
  | .error e => throw e

/-- The notice of a delivery that broke off. -/
def deliveryNotice (what : String) (sent total : Nat) : String :=
  "Couldn't deliver all " ++ what ++ " (sent " ++ toString sent ++ "/" ++ toString total ++
    "). Try again."

/-- Send the messages in turn; the first failure ends it with a notice, whose own failure is
swallowed. -/
def deliver (what chatId : String) (total : Nat) : Nat → List String → EdgeProc Unit
  | _, [] => pure ()
  | sent, body :: bodies => do
    match ← capture (EdgeProc.send chatId (.message body)) with
    | .ok () => deliver what chatId total (sent + 1) bodies
    | .error _ =>
      let _ ← capture (EdgeProc.send chatId (.message (deliveryNotice what sent total)))
      pure ()

/-- Pack the blocks and send the messages. -/
def deliverBlocks (what chatId header : String) (blocks : List String) : EdgeProc Unit := do
  let messages ← EdgeProc.ofExcept
    (packDraftsIntoMessages header blocks defaultCap defaultSeparator)
  deliver what chatId messages.length 0 messages

def replyDeliveryFailed : String :=
  "Export generated but delivery to Telegram failed. Try /export json again."

/-- Send the document; its failure is the response. -/
def deliverDocument (chatId caption : String) (document : ExportPayload) :
    EdgeProc (Option SendMessage) := do
  match ← capture (EdgeProc.send chatId
      (.document document.filename document.content document.mediaType caption)) with
  | .ok () => pure none
  | .error _ => do
    let payload ← EdgeProc.ofExcept (buildSendMessagePayload chatId replyDeliveryFailed)
    pure (some payload)

/-- Reply with what the dispatcher returned; no payload is an empty response. -/
def respondWith (inbound : InboundMessage) (result : DispatchResult) :
    EdgeProc (Option SendMessage) :=
  match result.document, result.drafts, result.sourceChunks with
  | some document, _, _ => deliverDocument inbound.externalChatId result.replyText document
  | none, some drafts, _ => do
    let blocks ← renderDrafts inbound.communityId drafts
    deliverBlocks "drafts" inbound.externalChatId result.replyText blocks
    pure none
  | none, none, some chunks => do
    let blocks ← renderSources inbound.communityId chunks.length 1 chunks
    deliverBlocks "sources" inbound.externalChatId result.replyText blocks
    pure none
  | none, none, none => do
    let payload ← EdgeProc.ofExcept
      (buildSendMessagePayload inbound.externalChatId result.replyText)
    pure (some payload)

/-- The snapshot of the sender of a message. -/
def TelegramMessage.displayInput (message : TelegramMessage) (inbound : InboundMessage) :
    AuthorDisplayInput where
  key := (inbound.externalChatId, inbound.externalMessageId, inbound.editSeq)
  username := message.sender.username
  firstName := message.sender.firstName

/-- Keep the snapshot of a note or draft; a failure is swallowed. -/
def captureDisplayInput (message : TelegramMessage) (inbound : InboundMessage) (route : RouteKind) :
    EdgeProc Unit :=
  if lifecycleFor route = .note ∨ lifecycleFor route = .draft then do
    let _ ← capture (EdgeProc.saveAuthorDisplayInput (message.displayInput inbound))
    pure ()
  else pure ()

/-! ## The webhook -/

def unauthorized : Exn := .other "HTTPException"

/-- `_verify_secret`; `secrets.compare_digest` takes ASCII strings only. -/
def verifySecret (expected : String) (provided : Option String) : Except Exn Unit :=
  match provided with
  | none => throw unauthorized
  | some provided =>
    if expected = "" then throw unauthorized
    else if (expected.toList ++ provided.toList).any fun c => 128 ≤ c.toNat then
      throw (.typeError "comparing strings with non-ASCII characters is not supported")
    else if expected = provided then pure ()
    else throw unauthorized

/-- One request : an update with the header it came with, and what serves it. -/
structure WebhookRequest where
  webhookSecret : String
  dispatcher : Dispatcher
  secretToken : Option String
  update : TelegramUpdate

/-- The part of the webhook that serves a message. -/
def serveMessage (dispatcher : Dispatcher) (message : TelegramMessage) (inbound : InboundMessage) :
    EdgeProc (Option SendMessage) := do
  let result ← EdgeProc.core (dispatcher.dispatch inbound)
  captureDisplayInput message inbound result.route
  respondWith inbound result

/-- `telegram_webhook`. -/
def telegramWebhook (request : WebhookRequest) : EdgeProc (Option SendMessage) := do
  EdgeProc.ofExcept (verifySecret request.webhookSecret request.secretToken)
  match request.update.received with
  | none => pure none
  | some message =>
    match DateTime.fromTimestamp? message.date with
    | none => throw (timestampError message.date)
    | some receivedAt => serveMessage request.dispatcher message (message.inbound receivedAt)

/-! ## The edge -/

/-- What the webhook does not control : besides what the services do not, which calls of its
ports of the store and of the host fail. -/
structure EdgeEnv extends Env where
  portFails : Nat → Option Exn
  sendFails : Nat → Option Exn

/-- One attempt to send. -/
structure Sending where
  chatId : String
  parcel : Parcel
  delivered : Bool
  deriving DecidableEq

/-- A state of the system with its adapter. -/
structure Edge (S : Type) where
  world : World S
  displays : AuthorDisplayInputs := .empty
  sent : List Sending := []
  ports : Nat := 0

namespace Edge

variable {S : Type}

/-- Answer a call of a port of the store. -/
def port {α : Type} (env : EdgeEnv) (v : Edge S) (r : Except Exn α) (displays : AuthorDisplayInputs) :
    Except Exn α × Edge S :=
  match env.portFails v.ports with
  | some e => (.error e, { v with ports := v.ports + 1 })
  | none => (r, { v with ports := v.ports + 1, displays })

end Edge

/-- `get_source_message`, the same for the three stores. -/
def getSourceMessage (id community : String) (T : Tables) : Except Exn (Option SourceMessage) := do
  requireCommunity community
  pure (T.ownedSource id community)

/-- Answer a call of the webhook. -/
def serveEdge (B : Backend) (env : EdgeEnv) :
    (c : EdgeCall) → Edge B.State → EdgeReply c × Edge B.State
  | .core c, v =>
    let r := serve B env.toEnv c v.world
    (r.1, { v with world := r.2 })
  | .saveAuthorDisplayInput row, v => v.port env (.ok ()) (saveAuthorDisplayInput row v.displays)
  | .getAuthorDisplayInput key, v => v.port env (.ok (v.displays.find? key)) v.displays
  | .getSourceMessage id community, v =>
    v.port env (getSourceMessage id community (B.tables v.world.store)) v.displays
  | .send chatId parcel, v =>
    match env.sendFails v.sent.length with
    | some e => (.error e, { v with sent := v.sent ++ [⟨chatId, parcel, false⟩] })
    | none => (.ok (), { v with sent := v.sent ++ [⟨chatId, parcel, true⟩] })

/-- Serve an update. -/
def EdgeProc.exec {α : Type} (B : Backend) (env : EdgeEnv) (p : EdgeProc α) (v : Edge B.State) :
    Except Exn α × Edge B.State :=
  Prog.run (serveEdge B env) p.run v

end DiaryMemory
