import DiaryMemory.Export
import DiaryMemory.RoutedChat

/-!
# The dispatcher

`Dispatcher.dispatch` serves a message : notes and drafts go to the ingestion service,
questions to the query service or the routed chat, and the reply is a text with, for
`/sources`, the chunks cited by the community's latest `/ask`. That answer's cited chunks
are kept in a cache which every `/ask` overwrites and nothing else touches
(`updateLatestSources`).
-/

namespace DiaryMemory

/-! ## Fixed replies -/

def replyStart : String :=
  "Welcome — diary mode. Use /note to record, /ask to query, /sources to see the " ++
  "chunks behind your last answer, or /drafts to recall recent drafts. For " ++
  "/note, put a date on the first line — 2026-05-09 is the recommended form; " ++
  "2026/05/09, 2026.05.09, 09-05-2026, 09/05/2026, and 09.05.2026 also work " ++
  "(DD-first is read as DD/MM/YYYY). Plain text without a command is stored as a " ++
  "draft so nothing is lost."

def replyHelp : String :=
  "Commands: /start, /help, /note, /ask, /chat, /sources, /drafts, /export. " ++
  "Plain text without a command is stored as a draft."

def replyUnknown : String :=
  "I haven't been taught how to handle that yet — use /note, /ask, /sources, or " ++
  "/drafts."

def replyClarify : String :=
  "I couldn't tell if that's a diary entry or a question. Send /note " ++
  "<YYYY-MM-DD> on the first line then your events to record it, or /ask <your " ++
  "question> to query."

def replyExportUsage : String := "Usage: /export json | /export txt — pick a format."

def replyDraftsUsage : String := "Usage: /drafts [N]. N must be a positive integer."

def replyDraftsEmpty : String := "No drafts to show."

def draftReplyPrefix : String := "Stored as draft"

def replyDeleteOk : String :=
  "Deleted. That note is removed from search and won't appear in answers."

def replyDeleteNothing : String :=
  "Nothing to delete — reply to a saved note with /delete to remove it."

def replyDeleteNoTarget : String := "To delete a note, reply to it with /delete."

def trailerWeakEvidence : String := "(weak evidence — model expressed uncertainty)"

def trailerAmbiguous : String := "(ambiguous question — refine and ask again)"

def replyProviderUnavailable : String :=
  "Couldn't generate an answer — chat provider is unavailable. Try again later."

def replyParseFailure : String :=
  "Couldn't generate an answer — provider response was unparseable. Try again."

def replySourcesNone : String := "No selected chunks available — ask a question with /ask first."

def replySourcesNoneCited : String := "Your last /ask answer didn't cite any specific notes."

def replyChatUnavailable : String :=
  "Routed chat isn't available here — use /ask to query your saved notes."

def trailerModelKnowledge : String := "(model knowledge — not from your saved notes)"

def trailerChatRerouted : String := "(answered from your saved notes)"

def headerChatNoNotes : String :=
  "Nothing in your saved notes covers this — here's general information instead."

def headerChatWeakNotes : String := "Your saved notes only weakly cover this."

def labelChatNotes : String := "From your saved notes:"

def labelChatWeb : String := "From the web:"

/-! ## Rendering -/

/-- `text or ""`. -/
def orEmpty (text : Option String) : String := text.getD ""

/-- `_format_ingest_reply`; a saved note without a date fails its assertion. -/
def formatIngestReply (result : IngestResult) : Except Exn String :=
  if result.fallback = .invalidInput then
    pure ("First line must be a date like 2026-05-09. Got: '" ++ orEmpty result.invalidFirstLine ++
      "'.")
  else
    match result.noteDate with
    | none => throw .assertionError
    | some noteDate =>
      if result.eventsCount = 0 then
        pure ("Saved your note for " ++ noteDate.isoformat ++ " with no content.")
      else pure ("Saved your note for " ++ noteDate.isoformat ++ ".")

/-- `_format_draft_reply`. -/
def formatDraftReply (result : IngestResult) : String :=
  draftReplyPrefix ++ (if result.replayed then " (replay)" else "") ++ "."

/-- `_format_answer_reply`. -/
def formatAnswerReply (result : AnswerResult) : String :=
  match result.fallback with
  | .none => orEmpty result.answerText
  | .weakEvidence => orEmpty result.answerText ++ "\n\n" ++ trailerWeakEvidence
  | .ambiguous => orEmpty result.answerText ++ "\n\n" ++ trailerAmbiguous
  | .providerUnavailable => replyProviderUnavailable
  | .parseFailure => replyParseFailure
  | .noEvidence =>
    if result.queryText = "" then "No query text provided."
    else if result.evidence ≠ [] then
      "Found possible matches but couldn't ground an answer for '" ++ result.queryText ++
        "'. Try refining the question."
    else
      "Nothing in your saved notes matched '" ++ result.queryText ++ "'. Try rephrasing the " ++
        "question, or use words that appear in your notes."
  | .invalidInput => replyUnknown

/-- The segment of a mixed reply that comes from the notes, headed by how well they cover
the question. -/
def notesParts (answer : AnswerResult) : List String :=
  if answer.fallback = .noEvidence then [headerChatNoNotes]
  else (if answer.fallback = .weakEvidence then [headerChatWeakNotes] else []) ++
    [labelChatNotes ++ "\n" ++ orEmpty answer.answerText]

/-- The segment of a mixed reply that comes from the knowledge source. -/
def webParts (answer : AnswerResult) : List String :=
  match orEmpty answer.knowledgeText with
  | "" => []
  | text => [labelChatWeb ++ "\n" ++ text ++ String.join (answer.knowledgeRefs.map ("\n" ++ ·))]

/-- The segment of a mixed reply that comes from the model. -/
def modelParts (answer : AnswerResult) : List String :=
  match orEmpty answer.modelText with
  | "" => []
  | text => [trailerModelKnowledge ++ "\n" ++ text]

/-- A mixed reply : its failures read like those of `/ask`. -/
def formatMixedReply (parts : AnswerResult → List String) (answer : AnswerResult) : String :=
  if answer.fallback = .providerUnavailable ∨ answer.fallback = .parseFailure then
    formatAnswerReply answer
  else "\n\n".intercalate (parts answer)

/-- `_format_notes_plus_model_reply`. -/
def formatNotesPlusModelReply : AnswerResult → String :=
  formatMixedReply fun answer => notesParts answer ++ modelParts answer

/-- `_format_notes_plus_knowledge_reply`. -/
def formatNotesPlusKnowledgeReply : AnswerResult → String :=
  formatMixedReply fun answer => notesParts answer ++ webParts answer ++ modelParts answer

/-- `_format_chat_reply`. -/
def formatChatReply (result : RoutedChatResult) : String :=
  match result.effectiveRoute with
  | .notesPlusModel => formatNotesPlusModelReply result.answer
  | .notesPlusKnowledge => formatNotesPlusKnowledgeReply result.answer
  | .modelOnly =>
    if result.answer.fallback = .none then
      formatAnswerReply result.answer ++ "\n\n" ++ trailerModelKnowledge
    else formatAnswerReply result.answer
  | .notesLookup =>
    if result.requestedRoute ≠ some .notesLookup then
      formatAnswerReply result.answer ++ "\n\n" ++ trailerChatRerouted
    else formatAnswerReply result.answer

/-- `_format_drafts_header`. -/
def formatDraftsHeader (returned : Nat) (requested : Int) (explicit : Bool) (maxLimit : Int) :
    String :=
  let plural := if returned = 1 then "draft" else "drafts"
  let recent := "Most recent " ++ toString returned ++ " " ++ plural ++ ":"
  if !explicit ∨ (returned : Int) = requested then recent
  else if (returned : Int) < requested then
    if (returned : Int) < maxLimit then
      "Showing all " ++ toString returned ++ " " ++ plural ++ " (you asked for " ++
        toString requested ++ ")."
    else
      "Showing the " ++ toString returned ++ " most recent " ++ plural ++ " (you asked for " ++
        toString requested ++ ")."
  else recent

/-! ## Serving a message -/

/-- `RouteSource`, as it stands in the metadata. -/
def RouteSource.text : RouteSource → String
  | .command => "command"
  | .heuristic => "heuristic"

/-- A reply with what the adapter renders next to it. -/
structure DispatchResult where
  replyText : String
  route : RouteKind
  metadata : List (String × String) := []
  document : Option ExportPayload := none
  drafts : Option (List SourceMessage) := none
  sourceChunks : Option (List EventChunk) := none
  deriving DecidableEq

/-- The dispatcher with its services; `parseInt` is Python's `int` on a string. -/
structure Dispatcher where
  domain : DomainService
  query : QueryService
  routedChat : Option RoutedChatService := none
  draftsDefaultLimit : Int := 5
  draftsMaxLimit : Int := 20
  parseInt : String → Option Int

namespace Dispatcher

variable (dispatcher : Dispatcher)

/-- The metadata of a reply that took one path. -/
def pathMetadata (message : InboundMessage) (fallback : FallbackMode)
    (rest : List (String × String)) : List (String × String) :=
  ("fallback", fallback.value) :: ("route_source", message.routeSource.text) :: rest

/-- The metadata of an ingest reply. -/
def ingestMetadata (message : InboundMessage) (result : IngestResult) : List (String × String) :=
  pathMetadata message result.fallback
    [("effective_path", if result.replayed then "replay" else "fresh")]

def dispatchNote (message : InboundMessage) : Proc DispatchResult := do
  let message := { message with
    payload := normalizeNotePayload message.payload message.receivedAt.date }
  let result ← dispatcher.domain.ingest message
  let replyText ← Proc.ofExcept (formatIngestReply result)
  pure { replyText, route := .note, metadata := ingestMetadata message result }

def dispatchDraft (message : InboundMessage) : Proc DispatchResult := do
  let result ← dispatcher.domain.ingest message
  pure { replyText := formatDraftReply result, route := .draft
         metadata := ingestMetadata message result }

/-- The cited chunks of an answer, in the order of its context. -/
def citedChunks (answer : AnswerResult) : List EventChunk :=
  match answer.context with
  | none => []
  | some context => context.orderedChunks.filter fun c => answer.citedChunkIds.contains c.chunkId

/-- `_update_latest_sources`. -/
def updateLatestSources (community : String) (answer : AnswerResult) : Proc Unit :=
  Proc.setLatestSources community (citedChunks answer)

/-- The answer to `/ask`, or the synthetic one where the search seam is not there. -/
def answerAsk (message : InboundMessage) : Proc AnswerResult := do
  match ← capture (dispatcher.query.answer message none none) with
  | .error (.notImplementedError _) =>
    pure { fallback := .noEvidence, queryText := PyText.strip message.payload }
  | .error e => throw e
  | .ok answer => pure answer

def dispatchAsk (message : InboundMessage) : Proc DispatchResult := do
  let answer ← dispatcher.answerAsk message
  updateLatestSources message.communityId answer
  pure { replyText := formatAnswerReply answer, route := .ask
         metadata := pathMetadata message answer.fallback [] }

def dispatchChat (message : InboundMessage) : Proc DispatchResult :=
  match dispatcher.routedChat with
  | none => pure { replyText := replyChatUnavailable, route := .chat
                   metadata := [("route_source", message.routeSource.text)] }
  | some routedChat => do
    let result ← routedChat.chat message none
    pure { replyText := formatChatReply result, route := .chat
           metadata := pathMetadata message result.answer.fallback
             [("requested_route", (result.requestedRoute.map ChatRoute.value).getD "unclassified"),
              ("effective_route", result.effectiveRoute.value)] }

def dispatchSources (message : InboundMessage) : Proc DispatchResult := do
  match ← Proc.getLatestSources message.communityId with
  | none => pure { replyText := replySourcesNone, route := .sources
                   metadata := pathMetadata message .none [("returned", "0")] }
  | some [] => pure { replyText := replySourcesNoneCited, route := .sources
                      metadata := pathMetadata message .none [("returned", "0")] }
  | some (chunk :: chunks) =>
    pure { replyText := "", route := .sources
           metadata := pathMetadata message .none
             [("returned", toString (chunk :: chunks).length)]
           sourceChunks := some (chunk :: chunks) }

/-- The number of drafts `/drafts` asks for, and whether the payload names it. -/
def requestedDrafts (payload : String) : Option (Int × Bool) :=
  let payload := PyText.strip payload
  if payload = "" then some (dispatcher.draftsDefaultLimit, false)
  else
    match dispatcher.parseInt payload with
    | none => none
    | some requested => if requested < 1 then none else some (requested, true)

def dispatchDrafts (message : InboundMessage) : Proc DispatchResult := do
  match dispatcher.requestedDrafts message.payload with
  | none => pure { replyText := replyDraftsUsage, route := .drafts
                   metadata := pathMetadata message .invalidInput [] }
  | some (requested, explicit) =>
    let drafts ← DomainService.listRecentDrafts message.communityId
      (min requested dispatcher.draftsMaxLimit)
    let metadata := pathMetadata message .none
      [("requested", toString requested), ("returned", toString drafts.length)]
    if drafts = [] then pure { replyText := replyDraftsEmpty, route := .drafts, metadata }
    else
      pure { replyText := formatDraftsHeader drafts.length requested explicit
               dispatcher.draftsMaxLimit
             route := .drafts, metadata, drafts := some drafts }

/-- The format `/export` asks for. -/
def requestedFormat (payload : String) : Option ExportFormat :=
  match (PyText.strip payload).map Char.toLower with
  | "json" => some .json
  | "txt" => some .txt
  | _ => none

def dispatchExport (message : InboundMessage) : Proc DispatchResult :=
  match requestedFormat message.payload with
  | none => pure { replyText := replyExportUsage, route := .export_
                   metadata := pathMetadata message .invalidInput [] }
  | some format => do
    let payload ← exportRaw message.communityId message.externalUserId format
    let unit := if payload.recordCount = 1 then "message" else "messages"
    let shown := match format with
      | .json => "JSON"
      | .txt => "TXT"
    pure { replyText := "Exported " ++ toString payload.recordCount ++ " raw " ++ unit ++ " as " ++
             shown ++ "."
           route := .export_, document := some payload
           metadata := pathMetadata message .none [("format", format.value)] }

def dispatchDelete (message : InboundMessage) : Proc DispatchResult :=
  match message.replyToExternalMessageId with
  | none => pure { replyText := replyDeleteNoTarget, route := .delete
                   metadata := pathMetadata message .invalidInput [("deleted", "false")] }
  | some target => do
    let outcome ← DomainService.deleteNoteForExternalMessage message.externalChatId target
      message.communityId
    pure { replyText := if outcome.deleted then replyDeleteOk else replyDeleteNothing
           route := .delete
           metadata := pathMetadata message .none
             [("deleted", if outcome.deleted then "true" else "false")] }

/-- Serve a message. -/
def dispatch (message : InboundMessage) : Proc DispatchResult :=
  match message.route with
  | .start => pure { replyText := replyStart, route := .start }
  | .help => pure { replyText := replyHelp, route := .help }
  | .note => dispatcher.dispatchNote message
  | .draft => dispatcher.dispatchDraft message
  | .ask => dispatcher.dispatchAsk message
  | .chat => dispatcher.dispatchChat message
  | .sources => dispatchSources message
  | .drafts => dispatcher.dispatchDrafts message
  | .export_ => dispatchExport message
  | .delete => dispatchDelete message
  | .clarify => pure { replyText := replyClarify, route := .clarify
                       metadata := [("route_source", message.routeSource.text)] }
  | .unknown => pure { replyText := replyUnknown, route := .unknown }

end Dispatcher

end DiaryMemory
