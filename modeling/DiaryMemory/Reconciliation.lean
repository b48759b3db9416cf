import DiaryMemory.DomainService

/-!
# The retry of failed embeddings

`ReconciliationService.discoverFailedChunks` lists the chunks of a community whose embedding
failed. `ReconciliationService.retryFailedChunks` groups them by source row in the order of
their first chunk (`groupBySource`), and embeds each group again. A group that raises is left failed and
recorded as a dead letter; the others go on.
-/

namespace DiaryMemory

/-- The failed chunks of a community at one moment, oldest first. -/
structure FailedEmbeddingReport where
  communityId : String
  chunks : List EventChunk
  deriving DecidableEq

def FailedEmbeddingReport.count (report : FailedEmbeddingReport) : Nat := report.chunks.length

/-- The result of retrying the chunks of one source row. -/
structure RetryGroupOutcome where
  sourceMessageId : String
  chunkIds : List String
  succeeded : Bool
  errorClass : Option String := none
  deadLetterId : Option String := none
  deriving DecidableEq

/-- The results of one retry run, oldest failure first. -/
structure RetryOutcomeReport where
  communityId : String
  groups : List RetryGroupOutcome
  deriving DecidableEq

namespace RetryOutcomeReport

variable (report : RetryOutcomeReport)

def attemptedChunks : Int := (report.groups.map fun g => (g.chunkIds.length : Int)).sum

def succeededChunks : Int :=
  ((report.groups.filter RetryGroupOutcome.succeeded).map fun g => (g.chunkIds.length : Int)).sum

def failedChunks : Int := report.attemptedChunks - report.succeededChunks

def groupsSucceeded : Int := (report.groups.filter RetryGroupOutcome.succeeded).length

def groupsFailed : Int := report.groups.length - report.groupsSucceeded

end RetryOutcomeReport

/-- `groups.setdefault(chunk.source_message_id, []).append(chunk)`. -/
def addToGroup (chunk : EventChunk) :
    List (String × List EventChunk) → List (String × List EventChunk)
  | [] => [(chunk.sourceMessageId, [chunk])]
  | (source, group) :: groups =>
    if source = chunk.sourceMessageId then (source, group ++ [chunk]) :: groups
    else (source, group) :: addToGroup chunk groups

/-- The chunks by source row, in the order in which the sources appear. -/
def groupBySource (chunks : List EventChunk) : List (String × List EventChunk) :=
  chunks.foldl (fun groups chunk => addToGroup chunk groups) []

/-- The service, with the embedding client it may have. -/
structure ReconciliationService where
  embeddingClient : Option EmbeddingClient

namespace ReconciliationService

/-- List the failed chunks of a community. -/
def discoverFailedChunks (communityId : String) (limit : Option Int) :
    Proc FailedEmbeddingReport := do
  let chunks ← Proc.listFailedEventChunks communityId limit
  pure { communityId, chunks }

/-- The guarded part of a group's retry : records are stored before the chunks turn
ready. -/
def embedGroup (client : EmbeddingClient) (sourceMessageId communityId : String) (now : DateTime)
    (group : List EventChunk) : Proc Unit := do
  let vectors ← Proc.embed group
  let records ← buildRecords client sourceMessageId communityId now group vectors
  Proc.saveEmbeddingRecords records
  setStatuses .ready group

/-- Retry one group. -/
def retryGroup (client : EmbeddingClient) (communityId : String) (now : DateTime)
    (sourceMessageId : String) (group : List EventChunk) : Proc RetryGroupOutcome := do
  let chunkIds := group.map EventChunk.chunkId
  match ← capture (embedGroup client sourceMessageId communityId now group) with
  | .ok _ => pure { sourceMessageId, chunkIds, succeeded := true }
  | .error exc =>
    let deadLetterId ← Proc.uuid4
    let saved ← capture (Proc.saveIndexingDeadLetter
      { deadLetterId, sourceMessageId, communityId, chunkIds, modelName := client.modelName
        errorClass := exc.className, createdAt := now })
    pure { sourceMessageId, chunkIds, succeeded := false, errorClass := some exc.className
           deadLetterId := if isRaise saved then none else some deadLetterId }

/-- Retry the groups in turn. -/
def retryGroups (client : EmbeddingClient) (communityId : String) (now : DateTime) :
    List (String × List EventChunk) → Proc (List RetryGroupOutcome)
  | [] => pure []
  | (sourceMessageId, group) :: groups => do
    let outcome ← retryGroup client communityId now sourceMessageId group
    let rest ← retryGroups client communityId now groups
    pure (outcome :: rest)

/-- Embed the failed chunks of a community again. -/
def retryFailedChunks (service : ReconciliationService) (communityId : String)
    (limit : Option Int) : Proc RetryOutcomeReport :=
  match service.embeddingClient with
  | none => throw (.runtimeError ("retry_failed_chunks requires an EmbeddingClient; " ++
      "construct ReconciliationService with one"))
  | some client => do
    let chunks ← Proc.listFailedEventChunks communityId limit
    let now ← Proc.now
    let groups ← retryGroups client communityId now (groupBySource chunks)
    pure { communityId, groups }

end ReconciliationService

end DiaryMemory
