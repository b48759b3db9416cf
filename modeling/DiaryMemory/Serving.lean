import DiaryMemory.Guard
import DiaryMemory.World

/-!
# How the stores serve a call

The three stores serve a call under its guard alike (`Serves`) : it raises when
`RepoCall.Refused` and changes nothing then, and otherwise returns what
`RepoCall.Returns` says and has its effect on the rows. They differ only in what they
refuse : SQLite has no export, no drafts recall and no retrieval, the in-memory store
refuses vectors of another length, and a SQL store refuses to remove a source row that a
dead letter names.

`StoreKind.Consistent` is what each store keeps besides the links : the in-memory store
its index of message keys, a SQL store its declared references.
-/

namespace DiaryMemory

/-- The chunks both retrieval legs start from. -/
def Tables.InScope (T : Tables) (scope : SearchScope) (c : EventChunk) : Prop :=
  c ∈ T.eventChunks ∧ chunkInScope scope c = true

/-- A chunk the dense leg would compare has a vector of another length. -/
def Tables.VectorMismatch (T : Tables) (queryEmbedding : Vec) (modelName : String)
    (scope : SearchScope) : Prop :=
  0 < scope.limit ∧ ∃ c, T.InScope scope c ∧ c.embeddingStatus = .ready ∧
    ∃ r, T.embeddingRecords.find? (c.chunkId, modelName) = some r ∧
      queryEmbedding.length ≠ r.embedding.length

/-- What the dense leg may return : distinct ready chunks in scope with a record. -/
def Tables.DenseResult (T : Tables) (modelName : String) (scope : SearchScope)
    (cs : List EventChunk) : Prop :=
  cs.Nodup ∧ ∀ c ∈ cs, T.InScope scope c ∧ c.embeddingStatus = .ready ∧
    (T.embeddingRecords.find? (c.chunkId, modelName)).isSome

/-- What the sparse leg may return : distinct chunks in scope. -/
def Tables.SparseResult (T : Tables) (scope : SearchScope) (cs : List EventChunk) : Prop :=
  cs.Nodup ∧ ∀ c ∈ cs, T.InScope scope c

namespace RepoCall

/-- When a store of the given kind refuses a call made under its guard. -/
def Refused (kind : StoreKind) : RepoCall → Tables → Prop
  | listSourceMessages community limit, _ =>
    kind = .sql .sqlite ∨ community = "" ∨ limit.any (· < 0)
  | listRecentDrafts community limit, _ => kind = .sql .sqlite ∨ community = "" ∨ limit < 1
  | getActiveNoteForExternalMessage _ _ community, _ => community = ""
  | getActiveChunkForNote _ community, _ => community = ""
  | listFailedEventChunks community limit, _ => community = "" ∨ limit.any (· < 0)
  | saveEmbeddingRecords rs, T => ∃ r ∈ rs, (T.embeddingRecords.find? r.chunkModel).isSome
  | hardDeleteSourceMessage id community, T => community = "" ∨ T.ownedSource id community = none ∨
    kind ≠ .mock ∧ ∃ d ∈ T.indexingDeadLetters, d.sourceMessageId = id
  | denseCandidates queryEmbedding modelName scope, T =>
    kind = .sql .sqlite ∨ scope.community = "" ∨
      kind = .mock ∧ T.VectorMismatch queryEmbedding modelName scope
  | sparseCandidates _ scope, _ => kind = .sql .sqlite ∨ scope.community = ""
  | _, _ => False

/-- What a call returns. -/
def Returns : (c : RepoCall) → Tables → RepoReply c → Prop
  | getOrCreateSourceMessage s, T, v => v =
    match T.sourceForKey s.messageKey with
    | some existing => (existing, true)
    | none => (s, false)
  | listSourceMessages community limit, T, v => v = T.listSourceMessages community limit
  | listRecentDrafts community limit, T, v => v = T.listRecentDrafts community limit
  | getNoteBySourceMessageId id, T, v => v = T.getNoteBySourceMessageId id
  | getActiveNoteForExternalMessage chat msg community, T, v =>
    v = T.getActiveNoteForExternalMessage chat msg community
  | countEventChunksForSource id, T, v => v = T.countEventChunksForSource id
  | getActiveChunkForNote noteId community, T, v => v = T.getActiveChunkForNote noteId community
  | hardDeleteSourceMessage id _, T, v => v = T.removalTally id
  | listFailedEventChunks community limit, T, v => v = T.listFailedEventChunks community limit
  | denseCandidates _ modelName scope, T, v => T.DenseResult modelName scope v
  | sparseCandidates _ scope, T, v => T.SparseResult scope v
  | _, _, _ => True

section GetOrCreate

variable {s existing : SourceMessage} {v : SourceMessage × Bool} {T : Tables}

theorem returns_found (h : T.sourceForKey s.messageKey = some existing) :
    (getOrCreateSourceMessage s).Returns T v ↔ v = (existing, true) := by
  simp only [Returns, h]
  rfl

theorem returns_new (h : T.sourceForKey s.messageKey = none) :
    (getOrCreateSourceMessage s).Returns T v ↔ v = (s, false) := by
  simp only [Returns, h]
  rfl

theorem effect_found (h : T.sourceForKey s.messageKey = some existing) :
    (getOrCreateSourceMessage s).effect T = T := by
  rw [effect, h]

theorem effect_new (h : T.sourceForKey s.messageKey = none) :
    (getOrCreateSourceMessage s).effect T = T.putSource s := by
  rw [effect, h]

end GetOrCreate

end RepoCall

/-- The store served the call : it refused it, or it returned and had its effect. Rows
that stay the same mean a store that stays the same. -/
structure Serves (B : Backend) (refused : Prop) (c : RepoCall) (s : B.State)
    (r : Except Exn (RepoReply c) × B.State) : Prop where
  raised : ∀ e, r.1 = .error e → refused ∧ r.2 = s
  returned : ∀ v, r.1 = .ok v →
    ¬ refused ∧ c.Returns (B.tables s) v ∧ B.tables r.2 = c.effect (B.tables s)
  unchanged : B.tables r.2 = B.tables s → r.2 = s

namespace Serves

variable {B : Backend} {refused : Prop} {c : RepoCall} {s s' : B.State}

theorem of_error {e : Exn} (h : refused) : Serves B refused c s (.error e, s) where
  raised _ _ := ⟨h, rfl⟩
  returned _ h := nomatch h
  unchanged _ := rfl

theorem of_ok {v : RepoReply c} (h : ¬ refused) (hv : c.Returns (B.tables s) v)
    (hs : B.tables s' = c.effect (B.tables s)) (hu : B.tables s' = B.tables s → s' = s) :
    Serves B refused c s (.ok v, s') where
  raised _ h := nomatch h
  returned _ h := by
    cases h
    exact ⟨‹_›, hv, hs⟩
  unchanged := hu

end Serves

/-! ## Reads of one community -/

/-- A read that starts with a check : a failed check is a refusal. -/
theorem Serves.of_check {B : Backend} {refused : Prop} {c : RepoCall} {s : B.State} {p : Prop}
    [Decidable p] {e : Exn} {r : Except Exn (RepoReply c)} (hp : p → refused)
    (hr : ¬ p → Serves B refused c s (reading s r)) :
    Serves B refused c s (reading s (if p then .error e else r)) := by
  by_cases h : p
  · rw [if_pos h]
    exact .of_error (hp h)
  · rw [if_neg h]
    exact hr h

theorem requireCommunity_bind {α : Type} (community : String) (f : Unit → Except Exn α) :
    (requireCommunity community >>= f) =
      if community = "" then .error (.valueError "community_id is required (Runtime invariant R-3)")
      else f () := by
  unfold requireCommunity
  split <;> rfl

theorem nodup_take_sort {α K : Type} [LinearOrder K] {key : α → K} {rows : List α} (n : Nat)
    (h : rows.Nodup) : ((oldestFirst key rows).take n).Nodup ∧ ((newestFirst key rows).take n).Nodup :=
  ⟨((List.perm_insertionSort _ rows).nodup_iff.mpr h).sublist (List.take_sublist n _),
    ((List.perm_insertionSort _ rows).nodup_iff.mpr h).sublist (List.take_sublist n _)⟩

theorem Table.rows_nodup {K V : Type} [DecidableEq K] {key : V → K} (t : Table key) :
    t.rows.Nodup :=
  t.nodup.of_map key

end DiaryMemory
