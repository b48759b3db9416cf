import DiaryMemory.Models
import DiaryMemory.PyText

/-!
# Routing a text

`parseCommand` splits a text into a command and its payload : the command ends at the first
space, or at a newline before it, and a `@BotName` suffix does not count. A text without a
known command is plain text, which `classifyPlainText` sends to the draft floor unless it is
blank. `resolveRoute` combines the two as the webhook does.
-/

namespace DiaryMemory

open PyText

/-- `COMMAND_TOKENS`. -/
def commandTokens : List (String × RouteKind) :=
  [("/start", .start), ("/help", .help), ("/note", .note), ("/ask", .ask), ("/chat", .chat),
    ("/drafts", .drafts), ("/export", .export_), ("/sources", .sources), ("/delete", .delete)]

/-- `parse_command` : the route and the text after the command. -/
def parseCommand (text : Option String) : RouteKind × String :=
  match text with
  | none | some "" => (.unknown, "")
  | some text =>
    let (head, rest) := partition ' ' text
    let (headNoNewline, restAfterNewline) := partition '\n' head
    let (head, rest) :=
      if restAfterNewline ≠ "" then
        -- the first white space was a newline, not a space
        (headNoNewline, restAfterNewline ++ (if rest ≠ "" then " " ++ rest else ""))
      else (head, rest)
    let token := (partition '@' head).1
    match commandTokens.lookup token with
    | none => (.unknown, text)
    | some route => (route, lstrip rest)

/-- How sure the classifier is. -/
inductive Confidence where
  | high | low
  deriving DecidableEq

structure ClassifiedRoute where
  route : RouteKind
  payload : String
  confidence : Confidence
  reason : String
  deriving DecidableEq

/-- `classify_plain_text`. -/
def classifyPlainText (text : String) : ClassifiedRoute :=
  if strip text = "" then ⟨.clarify, text, .low, "empty_after_strip"⟩
  else ⟨.draft, text, .low, "draft_floor_no_signal"⟩

/-- The route of a text with what it hands to the handler. -/
structure ResolvedRoute where
  route : RouteKind
  payload : String
  routeSource : RouteSource
  confidence : Option Confidence
  deriving DecidableEq

/-- `_resolve_route`. -/
def resolveRoute (text : Option String) : ResolvedRoute :=
  let (commandRoute, commandPayload) := parseCommand text
  if commandRoute ≠ .unknown ∨ strip (text.getD "") = "" then
    ⟨commandRoute, commandPayload, .command, none⟩
  else
    let classified := classifyPlainText (text.getD "")
    ⟨classified.route, classified.payload, .heuristic, some classified.confidence⟩

/-- The message the webhook builds, its route and payload resolved from `text`. -/
def InboundMessage.withText (message : InboundMessage) (text : Option String) : InboundMessage :=
  let resolved := resolveRoute text
  { message with
    route := resolved.route, payload := resolved.payload, routeSource := resolved.routeSource }

example : parseCommand (some "/note@DiaryBot 2026-05-09\nFoo") = (.note, "2026-05-09\nFoo") := by
  decide
example : (resolveRoute (some "/entry Foo")).route = .draft := by decide

end DiaryMemory
