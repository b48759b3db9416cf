import DiaryMemory.QueryService
import Mathlib.Data.Finset.Card
import Mathlib.Data.Finset.Basic

/-!
# The retrieval harness

`ingestFixtureCorpus` drives `DomainService.ingest` over a corpus and maps each handle
`external_message_id#event_index` to the chunk it became. `Harness.runHarness` resolves the expected
handles of every gold query, runs both retrieval legs and their fusion, and reports recall,
reciprocal rank and hits, per query and over the gold set.

Metrics are rationals. Latencies, and the answer-path half of the harness, are left out.
-/

namespace DiaryMemory

/-- A query with the handles of the chunks it should find. -/
structure GoldQuery where
  communityId : String
  query : String
  expectedHandles : List String
  deriving DecidableEq

/-- A raw message of the corpus. -/
structure CorpusMessage where
  externalMessageId : String
  communityId : String
  authorUserId : String
  rawText : String
  deriving DecidableEq

/-- `handles_to_chunk_ids`. -/
abbrev Handles := Table (Prod.fst : String × String → String)

/-! ## Ingest -/

/-- The handle of a chunk : the message it is of, and its place in it. -/
def handleOf (externalMessageId : String) (chunk : EventChunk) : String :=
  externalMessageId ++ "#" ++ toString chunk.eventIndex

/-- The inbound message of a corpus message. -/
def CorpusMessage.inbound (cm : CorpusMessage) (receivedAt : DateTime) : InboundMessage where
  externalMessageId := cm.externalMessageId
  externalChatId := cm.communityId
  externalUserId := cm.authorUserId
  communityId := cm.communityId
  route := .note
  receivedAt := receivedAt
  routeSource := .command
  payload := cm.rawText

/-- Set the handle of each chunk of a message, in the order of their places. -/
def setHandles (externalMessageId : String) (chunks : List EventChunk) (handles : Handles) :
    Handles :=
  (oldestFirst EventChunk.eventIndex chunks).foldl
    (fun handles chunk => handles.put (handleOf externalMessageId chunk, chunk.chunkId)) handles

section Ingest

variable (B : Backend) (env : Env) (chunksForSource : Tables → String → List EventChunk)
  (client : EmbeddingClient) (reprStr : String → String) (receivedAt : DateTime)

/-- The loop of `ingest_fixture_corpus`. The chunks of a source row are read off the store by the
caller's lookup. -/
def ingestMessages :
    List CorpusMessage → Handles → World B.State → Except Exn Handles × World B.State
  | [], handles, w => (.ok handles, w)
  | cm :: corpus, handles, w =>
    match (DomainService.ingest ⟨some client⟩ (cm.inbound receivedAt)).exec B env w with
    | (.error e, w) => (.error e, w)
    | (.ok result, w) =>
      match chunksForSource (B.tables w.store) result.sourceMessageId with
      | [] => (.error (.runtimeError ("corpus message " ++ reprStr cm.externalMessageId ++
          " produced no chunks — check raw_text is a parseable diary payload" ++
          " (first line ISO date)")), w)
      | chunks => ingestMessages corpus (setHandles cm.externalMessageId chunks handles) w

/-- Ingest the corpus; the map of handles to chunks. -/
def ingestFixtureCorpus (corpus : List CorpusMessage) (w : World B.State) :
    Except Exn Handles × World B.State :=
  ingestMessages B env chunksForSource client reprStr receivedAt corpus .empty w

end Ingest

/-- The lookup of the mock run : the embedded chunks of the source row. -/
def mockChunksForSource (T : Tables) (id : String) : List EventChunk :=
  T.eventChunks.rows.filter fun c => c.sourceMessageId = id ∧ c.embeddingStatus = .ready

/-- The lookup of the Postgres run : the chunks of the source row by their places. -/
def postgresChunksForSource (T : Tables) (id : String) : List EventChunk :=
  oldestFirst EventChunk.eventIndex (T.eventChunks.rows.filter fun c => c.sourceMessageId = id)

/-! ## Metrics -/

/-- The fraction of the expected chunks in the first `k`. -/
def recallAtK (expected : Finset String) (returned : List String) (k : Int) : ℚ :=
  if k ≤ 0 then 0
  else if expected = ∅ then 0
  else ((returned.take k.toNat).countP fun cid => cid ∈ expected) / expected.card

/-- The rank of the first expected chunk, the first of the list at the given rank. -/
def rankFrom (expected : Finset String) : Nat → List String → Option Nat
  | _, [] => none
  | rank, cid :: rest => if cid ∈ expected then some rank else rankFrom expected (rank + 1) rest

/-- The rank of the first expected chunk among the first `k`, from 1. -/
def firstRelevantRank (expected : Finset String) (returned : List String) (k : Int) : Option Nat :=
  if k ≤ 0 ∨ expected = ∅ then none else rankFrom expected 1 (returned.take k.toNat)

/-- The reciprocal of a rank. -/
def reciprocalRank : Option Nat → ℚ
  | none => 0
  | some rank => 1 / rank

def mrrAtK (expected : Finset String) (returned : List String) (k : Int) : ℚ :=
  reciprocalRank (firstRelevantRank expected returned k)

/-- One row per gold query. -/
structure PerQueryResult where
  query : String
  communityId : String
  expectedChunkIds : List String
  denseTopKIds : List String
  sparseTopKIds : List String
  fusedTopKIds : List String
  firstRelevantRankInDense : Option Nat
  firstRelevantRankInSparse : Option Nat
  firstRelevantRankInFused : Option Nat
  reciprocalRankInFused : ℚ
  recallAt5 : ℚ
  recallAt10 : ℚ
  recallAt20 : ℚ
  deriving DecidableEq

/-- The fraction of the queries with expected chunks that found one. -/
def hitRate (rows : List PerQueryResult) : ℚ :=
  let answerable := rows.filter fun r => r.expectedChunkIds ≠ []
  if answerable = [] then 0
  else (answerable.countP fun r => r.firstRelevantRankInFused.isSome) / answerable.length

/-- The fraction of the queries that found nothing at all. -/
def emptyRate (rows : List PerQueryResult) : ℚ :=
  if rows = [] then 0 else (rows.countP fun r => r.fusedTopKIds = []) / rows.length

structure PerLegRecall where
  dense : ℚ
  sparse : ℚ
  fused : ℚ
  deriving DecidableEq

structure AggregateMetrics where
  recallAt5 : ℚ
  recallAt10 : ℚ
  recallAt20 : ℚ
  mrrAt20 : ℚ
  hitRate : ℚ
  emptyRate : ℚ
  perLegRecallAt20 : PerLegRecall
  deriving DecidableEq

structure HarnessReport where
  mode : String
  corpusSize : Nat
  queries : Nat
  aggregate : AggregateMetrics
  perQuery : List PerQueryResult
  deriving DecidableEq

/-! ## The run -/

/-- The rows and the running sums of `run_harness`. -/
structure HarnessSums where
  perQueryRows : List PerQueryResult := []
  sumR5 : ℚ := 0
  sumR10 : ℚ := 0
  sumR20 : ℚ := 0
  sumMrr : ℚ := 0
  sumDenseRecall : ℚ := 0
  sumSparseRecall : ℚ := 0
  sumFusedRecallAt20 : ℚ := 0

/-- One for a leg that found an expected chunk. -/
def legRecall (rank : Option Nat) (expected : List String) : ℚ :=
  if rank.isSome ∧ expected ≠ [] then 1 else 0

def HarnessSums.add (sums : HarnessSums) (row : PerQueryResult) : HarnessSums where
  perQueryRows := sums.perQueryRows ++ [row]
  sumR5 := sums.sumR5 + row.recallAt5
  sumR10 := sums.sumR10 + row.recallAt10
  sumR20 := sums.sumR20 + row.recallAt20
  sumMrr := sums.sumMrr + row.reciprocalRankInFused
  sumDenseRecall := sums.sumDenseRecall +
    legRecall row.firstRelevantRankInDense row.expectedChunkIds
  sumSparseRecall := sums.sumSparseRecall +
    legRecall row.firstRelevantRankInSparse row.expectedChunkIds
  sumFusedRecallAt20 := sums.sumFusedRecallAt20 +
    legRecall row.firstRelevantRankInFused row.expectedChunkIds

/-- The means over `n` queries. -/
def HarnessSums.aggregate (sums : HarnessSums) (n : Nat) : AggregateMetrics where
  recallAt5 := sums.sumR5 / n
  recallAt10 := sums.sumR10 / n
  recallAt20 := sums.sumR20 / n
  mrrAt20 := sums.sumMrr / n
  hitRate := DiaryMemory.hitRate sums.perQueryRows
  emptyRate := DiaryMemory.emptyRate sums.perQueryRows
  perLegRecallAt20 := ⟨sums.sumDenseRecall / n, sums.sumSparseRecall / n,
    sums.sumFusedRecallAt20 / n⟩

/-- The row of a query, from what it expects and what retrieval returned. -/
def perQueryResult (candidateK : Int) (gq : GoldQuery) (expectedIds : List String)
    (dense sparse : List EventChunk) (fused : List FusedHit) : PerQueryResult :=
  let expectedSet := expectedIds.toFinset
  let denseIds := dense.map EventChunk.chunkId
  let sparseIds := sparse.map EventChunk.chunkId
  let fusedIds := fused.map FusedHit.chunkId
  { query := gq.query
    communityId := gq.communityId
    expectedChunkIds := expectedIds
    denseTopKIds := denseIds
    sparseTopKIds := sparseIds
    fusedTopKIds := fusedIds
    firstRelevantRankInDense := firstRelevantRank expectedSet denseIds candidateK
    firstRelevantRankInSparse := firstRelevantRank expectedSet sparseIds candidateK
    firstRelevantRankInFused := firstRelevantRank expectedSet fusedIds candidateK
    reciprocalRankInFused := reciprocalRank (firstRelevantRank expectedSet fusedIds candidateK)
    recallAt5 := recallAtK expectedSet fusedIds 5
    recallAt10 := recallAtK expectedSet fusedIds 10
    recallAt20 := recallAtK expectedSet fusedIds 20 }

/-- The arguments of `run_harness` that a run reads. -/
structure Harness where
  mode : String
  handlesToChunkIds : Handles
  embeddingModelName : String
  queryEmbeddingLookup : String → Proc Vec
  candidateK : Int := 20
  corpusSize : Nat
  reprStr : String → String

namespace Harness

variable (harness : Harness)

/-- The chunks of the expected handles; a handle that is not in the map raises. -/
def resolve : List String → Except Exn (List String)
  | [] => pure []
  | handle :: rest =>
    match harness.handlesToChunkIds.find? handle with
    | none => throw (.keyError ("gold expected_handle " ++ harness.reprStr handle ++
        " not found in ingested corpus — check eval/retrieval/\x7bgold.json,corpus.jsonl\x7d" ++
        " agree on external_message_id + event_index"))
    | some (_, chunkId) => do
      let ids ← resolve rest
      pure (chunkId :: ids)

/-- Retrieve for one gold query, and measure. -/
def runQuery (gq : GoldQuery) : Proc PerQueryResult := do
  let expectedIds ← Proc.ofExcept (harness.resolve gq.expectedHandles)
  let queryEmbedding ← harness.queryEmbeddingLookup gq.query
  let scope : SearchScope := { community := gq.communityId, limit := harness.candidateK }
  let dense ← Proc.denseCandidates queryEmbedding harness.embeddingModelName scope
  let sparse ← Proc.sparseCandidates gq.query scope
  let fused ← Proc.ofExcept (reciprocalRankFusion [dense, sparse] harness.candidateK)
  pure (perQueryResult harness.candidateK gq expectedIds dense sparse fused)

/-- The loop of `run_harness`. -/
def runQueries : List GoldQuery → HarnessSums → Proc HarnessSums
  | [], sums => pure sums
  | gq :: gold, sums => do
    let row ← harness.runQuery gq
    runQueries gold (sums.add row)

/-- Run the gold set, and report. -/
def runHarness (gold : List GoldQuery) : Proc HarnessReport := do
  let sums ← harness.runQueries gold {}
  let n := if gold.length = 0 then 1 else gold.length
  pure
    { mode := harness.mode
      corpusSize := harness.corpusSize
      queries := gold.length
      aggregate := sums.aggregate n
      perQuery := sums.perQueryRows }

end Harness

end DiaryMemory
