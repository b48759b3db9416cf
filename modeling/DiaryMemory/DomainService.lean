import DiaryMemory.NoteParser
import DiaryMemory.World

/-!
# The ingestion service

`DomainService.ingest` persists the raw message, then, for a note, one `Note` and at
most one `EventChunk` holding its body, flips the revision they replace, and embeds the
chunk. A message state seen before returns the result rebuilt from the rows it left
(`reconstructResult`). `deleteNoteForExternalMessage` tombstones the active note of a
message, and `hardDeleteSourceMessage` removes a source row for good.
-/

namespace DiaryMemory

/-- What the services read off their embedding client. -/
structure EmbeddingClient where
  modelName : String
  dimension : Nat
  deriving DecidableEq

/-- The records of an embedding call, chunks and vectors paired by `zip(strict=True)`. -/
def buildRecords (client : EmbeddingClient) (sourceMessageId communityId : String)
    (now : DateTime) : List EventChunk → List Vec → Proc (List EmbeddingRecord)
  | [], [] => pure []
  | [], _ :: _ => throw (.valueError "zip() argument 2 is longer than argument 1")
  | _ :: _, [] => throw (.valueError "zip() argument 2 is shorter than argument 1")
  | chunk :: chunks, vector :: vectors => do
    let id ← Proc.uuid4
    let rest ← buildRecords client sourceMessageId communityId now chunks vectors
    pure (⟨id, chunk.chunkId, sourceMessageId, communityId, client.modelName, client.dimension,
      vector, now⟩ :: rest)

/-- Set the embedding status of each chunk in turn. -/
def setStatuses (status : EmbeddingStatus) : List EventChunk → Proc Unit
  | [] => pure ()
  | chunk :: chunks => do
    Proc.setChunkEmbeddingStatus chunk.chunkId status
    setStatuses status chunks

/-- The service, with the embedding client it may have. -/
structure DomainService where
  embeddingClient : Option EmbeddingClient

namespace DomainService

variable (service : DomainService)

/-- `_reconstruct_result`. -/
def reconstructResult (source : SourceMessage) : Proc IngestResult :=
  if source.detectedRoute = .draft then
    pure { fallback := .none, sourceMessageId := source.sourceMessageId, replayed := true }
  else do
    match ← Proc.getNoteBySourceMessageId source.sourceMessageId with
    | none =>
      pure { fallback := .invalidInput, sourceMessageId := source.sourceMessageId
             invalidFirstLine := some (firstLine source.rawText), replayed := true }
    | some note =>
      let eventsCount ← Proc.countEventChunksForSource source.sourceMessageId
      pure { fallback := .none, sourceMessageId := source.sourceMessageId
             noteDate := some note.noteDate, eventsCount, replayed := true }

/-- `_tombstone_active_note_for_external_message` : the chunk is flipped before the
note. -/
def tombstoneActiveNoteForExternalMessage (chat msg community : String) : Proc (Option Note) := do
  match ← Proc.getActiveNoteForExternalMessage chat msg community with
  | none => pure none
  | some priorNote =>
    match ← Proc.getActiveChunkForNote priorNote.noteId community with
    | none => pure ()
    | some priorChunk => Proc.markChunkTombstoned priorChunk.chunkId community
    Proc.markNoteTombstoned priorNote.noteId community
    pure (some priorNote)

/-- The branch of `_embed_chunks` for a failed embedding call : the chunks are marked
before the dead letter is written, whose own failure is swallowed. -/
def recordEmbeddingFailure (client : EmbeddingClient) (chunks : List EventChunk)
    (sourceMessageId communityId : String) (now : DateTime) (exc : Exn) : Proc Unit := do
  let deadLetterId ← Proc.uuid4
  setStatuses .failed chunks
  let _ ← capture (Proc.saveIndexingDeadLetter
    { deadLetterId, sourceMessageId, communityId, chunkIds := chunks.map EventChunk.chunkId
      modelName := client.modelName, errorClass := exc.className, createdAt := now })
  pure ()

/-- `_embed_chunks`. -/
def embedChunks (client : EmbeddingClient) (chunks : List EventChunk)
    (sourceMessageId communityId : String) (now : DateTime) : Proc Unit := do
  match ← capture (Proc.embed chunks) with
  | .error exc => recordEmbeddingFailure client chunks sourceMessageId communityId now exc
  | .ok vectors =>
    let records ← buildRecords client sourceMessageId communityId now chunks vectors
    Proc.saveEmbeddingRecords records
    setStatuses .ready chunks

/-- The active chunk of the revision a new note replaces. -/
def priorChunkOf (community : String) : Option Note → Proc (Option EventChunk)
  | none => pure none
  | some priorNote => Proc.getActiveChunkForNote priorNote.noteId community

/-- The note a message becomes. -/
def newNote (message : InboundMessage) (sourceMessageId : String) (now : DateTime)
    (parsed : ParsedNote) (noteId : String) (priorNote : Option Note) : Note :=
  { noteId, sourceMessageId, communityId := message.communityId
    authorUserId := message.externalUserId, noteDate := parsed.noteDate
    noteText := parsed.body, createdAt := now, subjectId := message.subjectId
    supersedesNoteId := priorNote.map Note.noteId }

/-- The chunk of a new note. -/
def newChunk (note : Note) (chunkId : String) (priorChunk : Option EventChunk) : EventChunk :=
  { chunkId, noteId := note.noteId, sourceMessageId := note.sourceMessageId
    communityId := note.communityId, authorUserId := note.authorUserId
    noteDate := note.noteDate, eventIndex := 0, chunkText := note.noteText
    createdAt := note.createdAt, subjectId := note.subjectId
    supersedesChunkId := priorChunk.map EventChunk.chunkId }

/-- The chunks of a new note : its whole body as one, unless that is empty. -/
def newChunks (note : Note) (priorChunk : Option EventChunk) : Proc (List EventChunk) :=
  if note.noteText = "" then pure []
  else do
    let chunkId ← Proc.uuid4
    pure [newChunk note chunkId priorChunk]

/-- Flip the replaced revision, its chunk before its note. -/
def supersede (community : String) (priorNote : Option Note) (priorChunk : Option EventChunk) :
    Proc Unit := do
  match priorChunk with
  | none => pure ()
  | some priorChunk => Proc.markChunkSuperseded priorChunk.chunkId community
  match priorNote with
  | none => pure ()
  | some priorNote => Proc.markNoteSuperseded priorNote.noteId community

/-- The part of `ingest` that saves a parsed note and flips the one it replaces. -/
def saveRevision (message : InboundMessage) (sourceMessageId : String) (now : DateTime)
    (parsed : ParsedNote) : Proc (List EventChunk) := do
  let priorNote ← Proc.getActiveNoteForExternalMessage message.externalChatId
    message.externalMessageId message.communityId
  let priorChunk ← priorChunkOf message.communityId priorNote
  let noteId ← Proc.uuid4
  let note := newNote message sourceMessageId now parsed noteId priorNote
  Proc.saveNote note
  let chunks ← newChunks note priorChunk
  Proc.saveEventChunks chunks
  supersede message.communityId priorNote priorChunk
  pure chunks

/-- The part of `ingest` that embeds the chunks of a new note. -/
def embedNew (sourceMessageId communityId : String) (now : DateTime) (chunks : List EventChunk) :
    Proc Unit :=
  match service.embeddingClient, chunks with
  | some client, _ :: _ => embedChunks client chunks sourceMessageId communityId now
  | _, _ => pure ()

/-- The source row of a delivered message. -/
def sourceRow (message : InboundMessage) (sourceMessageId : String) (now : DateTime) :
    SourceMessage :=
  { sourceMessageId, communityId := message.communityId
    authorUserId := message.externalUserId, externalChatId := message.externalChatId
    externalUserId := message.externalUserId, externalMessageId := message.externalMessageId
    editSeq := message.editSeq, rawText := message.payload, detectedRoute := message.route
    createdAt := now }

/-- The part of `ingest` for a message state seen for the first time. -/
def ingestFresh (message : InboundMessage) (sourceMessageId : String) (now : DateTime) :
    Proc IngestResult :=
  if message.route = .draft then do
    let _ ← tombstoneActiveNoteForExternalMessage message.externalChatId
      message.externalMessageId message.communityId
    pure { fallback := .none, sourceMessageId }
  else
    match parseNote message.payload with
    | none =>
      pure { fallback := .invalidInput, sourceMessageId
             invalidFirstLine := some (firstLine message.payload) }
    | some parsed => do
      let chunks ← saveRevision message sourceMessageId now parsed
      service.embedNew sourceMessageId message.communityId now chunks
      pure { fallback := .none, sourceMessageId, noteDate := some parsed.noteDate
             eventsCount := chunks.length }

/-- Ingest a message. -/
def ingest (message : InboundMessage) : Proc IngestResult := do
  let now ← Proc.now
  let candidateId ← Proc.uuid4
  let (persisted, replayed) ← Proc.getOrCreateSourceMessage (sourceRow message candidateId now)
  if replayed then reconstructResult persisted
  else service.ingestFresh message persisted.sourceMessageId now

/-- Tombstone the active note of an external message. -/
def deleteNoteForExternalMessage (chat target community : String) : Proc DeleteOutcome := do
  match ← tombstoneActiveNoteForExternalMessage chat target community with
  | none => pure { deleted := false }
  | some tombstoned => pure { deleted := true, noteDate := some tombstoned.noteDate }

/-- Remove a source row and what is derived from it; the audit line is not modelled. -/
def hardDeleteSourceMessage (id community : String) : Proc HardDeleteOutcome :=
  Proc.hardDeleteSourceMessage id community

def listRecentDrafts (community : String) (limit : Int) : Proc (List SourceMessage) :=
  if limit < 1 then throw (.valueError "limit must be >= 1")
  else Proc.listRecentDrafts community limit

end DomainService

end DiaryMemory
