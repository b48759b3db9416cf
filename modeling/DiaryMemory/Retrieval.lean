import DiaryMemory.World

/-!
# Rank fusion

`reciprocalRankFusion` merges the candidate lists of the two retrieval legs : a chunk
at rank `r` of a list scores `1 / (k + r)`, scores add up over the lists, and the best
`topK` chunks are kept, ties in the order of first appearance. `buildRetrievalHits`
turns what each leg saw and what survived into trace rows.
-/

namespace DiaryMemory

def defaultRrfK : Int := 60

/-- The model name of the rows of the sparse leg. -/
def sparseModelName : String := "simple"

/-- A chunk with its fused score. -/
structure FusedHit where
  chunk : EventChunk
  score : ℚ
  deriving DecidableEq

def FusedHit.chunkId (h : FusedHit) : String := h.chunk.chunkId

/-- `1.0 / (k + rank)`. -/
def rrfLegScore (rank : Nat) (k : Int := defaultRrfK) : ℚ := 1 / ((k : ℚ) + rank)

/-- Add the score of one ranked chunk; the first chunk of an id keeps its place. -/
def addRank (k : Int) (rank : Nat) (fused : Table FusedHit.chunkId) (chunk : EventChunk) :
    Table FusedHit.chunkId :=
  match fused.find? chunk.chunkId with
  | none => fused.put ⟨chunk, rrfLegScore rank k⟩
  | some h => fused.put ⟨h.chunk, h.score + rrfLegScore rank k⟩

/-- Add the scores of a list whose first chunk has the given rank. -/
def addRanking (k : Int) : Nat → Table FusedHit.chunkId → List EventChunk → Table FusedHit.chunkId
  | _, fused, [] => fused
  | rank, fused, chunk :: chunks => addRanking k (rank + 1) (addRank k rank fused chunk) chunks

/-- The chunks of all lists with their scores, in the order of first appearance. -/
def fuseRankings (k : Int) (rankings : List (List EventChunk)) : Table FusedHit.chunkId :=
  rankings.foldl (addRanking k 1) .empty

/-- Fuse ranked lists, best `topK` first. -/
def reciprocalRankFusion (rankings : List (List EventChunk)) (topK : Int)
    (k : Int := defaultRrfK) : Except Exn (List FusedHit) :=
  if topK ≤ 0 then pure []
  else if k ≤ 0 then throw (.valueError ("RRF k must be positive, got " ++ toString k))
  else pure ((newestFirst FusedHit.score (fuseRankings k rankings).rows).take topK.toNat)

/-- One retrieval pass : what each leg returned, and what survived the fusion. -/
structure RetrievedCandidates where
  dense : List EventChunk
  sparse : List EventChunk
  merged : List FusedHit
  embeddingModelName : String
  deriving DecidableEq

/-- The trace rows of one leg, from the given rank on. -/
def legHits (queryId : String) (leg : RetrievalLeg) (modelName : String) (createdAt : DateTime) :
    Nat → List (EventChunk × ℚ) → Proc (List RetrievalHit)
  | _, [] => pure []
  | rank, (chunk, score) :: rest => do
    let id ← Proc.uuid4
    let hits ← legHits queryId leg modelName createdAt (rank + 1) rest
    pure (⟨id, queryId, chunk.chunkId, leg, rank, score, modelName, createdAt⟩ :: hits)

/-- The chunks of a leg with the score of their rank. -/
def scoredByRank : Nat → List EventChunk → List (EventChunk × ℚ)
  | _, [] => []
  | rank, chunk :: chunks => (chunk, rrfLegScore rank) :: scoredByRank (rank + 1) chunks

/-- `build_retrieval_hits`. -/
def buildRetrievalHits (queryId modelName : String) (createdAt : DateTime)
    (candidates : RetrievedCandidates) : Proc (List RetrievalHit) := do
  let dense ← legHits queryId .dense modelName createdAt 1 (scoredByRank 1 candidates.dense)
  let sparse ← legHits queryId .sparse sparseModelName createdAt 1
    (scoredByRank 1 candidates.sparse)
  let merged ← legHits queryId .merged modelName createdAt 1
    (candidates.merged.map fun h => (h.chunk, h.score))
  pure (dense ++ sparse ++ merged)

/-! ## What the fusion keeps -/

theorem mem_addRank {k : Int} {rank : Nat} {fused : Table FusedHit.chunkId} {chunk : EventChunk}
    {h : FusedHit} (hm : h ∈ addRank k rank fused chunk) :
    h.chunk = chunk ∨ ∃ h' ∈ fused, h'.chunk = h.chunk := by
  unfold addRank at hm
  split at hm
  · rcases Table.mem_put.mp hm with rfl | ⟨hf, _⟩
    · exact Or.inl rfl
    · exact Or.inr ⟨h, hf, rfl⟩
  · next h' hf =>
    rcases Table.mem_put.mp hm with rfl | ⟨hf', _⟩
    · exact Or.inr ⟨h', Table.mem_of_find? hf, rfl⟩
    · exact Or.inr ⟨h, hf', rfl⟩

theorem mem_addRanking {k : Int} : ∀ (chunks : List EventChunk) {rank : Nat}
    {fused : Table FusedHit.chunkId} {h : FusedHit}, h ∈ addRanking k rank fused chunks →
      h.chunk ∈ chunks ∨ ∃ h' ∈ fused, h'.chunk = h.chunk
  | [], _, _, h, hm => Or.inr ⟨h, hm, rfl⟩
  | chunk :: chunks, rank, fused, h, hm => by
    rcases mem_addRanking chunks hm with hc | ⟨h', hf, he⟩
    · exact Or.inl (List.mem_cons_of_mem _ hc)
    · rcases mem_addRank hf with hc | ⟨h'', hf', he'⟩
      · exact Or.inl (by rw [← he, hc]; exact List.mem_cons_self)
      · exact Or.inr ⟨h'', hf', he'.trans he⟩

theorem mem_foldl_addRanking {k : Int} : ∀ (rankings : List (List EventChunk))
    {fused : Table FusedHit.chunkId} {h : FusedHit}, h ∈ rankings.foldl (addRanking k 1) fused →
      (∃ ranking ∈ rankings, h.chunk ∈ ranking) ∨ ∃ h' ∈ fused, h'.chunk = h.chunk
  | [], _, h, hm => Or.inr ⟨h, hm, rfl⟩
  | ranking :: rankings, fused, h, hm => by
    rcases mem_foldl_addRanking rankings hm with ⟨r, hr, hc⟩ | ⟨h', hf, he⟩
    · exact Or.inl ⟨r, List.mem_cons_of_mem _ hr, hc⟩
    · rcases mem_addRanking ranking hf with hc | ⟨h'', hf', he'⟩
      · exact Or.inl ⟨ranking, List.mem_cons_self, by rwa [← he]⟩
      · exact Or.inr ⟨h'', hf', he'.trans he⟩

/-- Every fused chunk is in one of the lists. -/
theorem mem_of_mem_fusion {rankings : List (List EventChunk)} {topK k : Int}
    {merged : List FusedHit} (hr : reciprocalRankFusion rankings topK k = .ok merged) {h : FusedHit}
    (hm : h ∈ merged) : ∃ ranking ∈ rankings, h.chunk ∈ ranking := by
  unfold reciprocalRankFusion at hr
  split at hr
  · cases hr
    cases hm
  · split at hr
    · cases hr
    · cases hr
      have hf := mem_newestFirst.mp (List.mem_of_mem_take hm)
      rcases mem_foldl_addRanking rankings hf with h | ⟨_, he, _⟩
      · exact h
      · exact absurd he Table.not_mem_empty

/-- A chunk is fused at most once. -/
theorem nodup_fusion {rankings : List (List EventChunk)} {topK k : Int} {merged : List FusedHit}
    (hr : reciprocalRankFusion rankings topK k = .ok merged) :
    (merged.map FusedHit.chunkId).Nodup := by
  unfold reciprocalRankFusion at hr
  split at hr
  · cases hr
    exact List.nodup_nil
  · split at hr
    · cases hr
    · cases hr
      refine List.Nodup.sublist ((List.take_sublist _ _).map _) ?_
      exact ((List.perm_insertionSort _ _).map _).nodup_iff.mpr (fuseRankings k rankings).nodup

/-- With the default constant, lists can always be fused. -/
theorem fusion_default (rankings : List (List EventChunk)) (topK : Int) :
    ∃ merged, reciprocalRankFusion rankings topK = .ok merged := by
  unfold reciprocalRankFusion
  split
  · exact ⟨_, rfl⟩
  · exact ⟨_, rfl⟩

end DiaryMemory
