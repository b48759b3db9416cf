import DiaryMemory.Models
import DiaryMemory.Table
import Mathlib.Data.List.Sort
import Mathlib.Data.Prod.Lex
import Mathlib.Data.String.Basic
import Mathlib.Tactic.Simps.Basic

/-!
# The tables of a store

`Tables` holds the rows all three stores keep, each table keyed as its primary or
unique key demands. The functions here are the parts of the stores on which the
in-memory dictionaries and the SQL agree : which rows a lookup selects and in which
order, and what a write changes. The checks that surround them are in
`DiaryMemory.MockStore` and `DiaryMemory.SqlStore`.
-/

namespace DiaryMemory

/-- The key that identifies a delivered message state. -/
abbrev MessageKey := String × String × Int

def SourceMessage.messageKey (s : SourceMessage) : MessageKey :=
  (s.externalChatId, s.externalMessageId, s.editSeq)

/-- The pair an embedding record is unique for. -/
def EmbeddingRecord.chunkModel (r : EmbeddingRecord) : String × String := (r.chunkId, r.modelName)

/-- The note in lifecycle state `state`. -/
@[simps]
def Note.withState (state : LifecycleState) (n : Note) : Note := { n with lifecycleState := state }

/-- The chunk in lifecycle state `state`. -/
@[simps]
def EventChunk.withState (state : LifecycleState) (c : EventChunk) : EventChunk :=
  { c with lifecycleState := state }

/-- The chunk with embedding status `status`. -/
@[simps]
def EventChunk.withStatus (status : EmbeddingStatus) (c : EventChunk) : EventChunk :=
  { c with embeddingStatus := status }

/-- The rows of a store. -/
structure Tables where
  sourceMessages : Table SourceMessage.sourceMessageId := .empty
  notes : Table Note.noteId := .empty
  eventChunks : Table EventChunk.chunkId := .empty
  embeddingRecords : Table EmbeddingRecord.chunkModel := .empty
  queries : Table Query.queryId := .empty
  retrievalHits : Table RetrievalHit.retrievalHitId := .empty
  answerTraces : Table AnswerTrace.queryId := .empty
  chatRouteDecisions : Table ChatRouteDecision.decisionId := .empty
  chatQueryRewrites : Table ChatQueryRewrite.decisionId := .empty
  chatKnowledgeSearches : Table ChatKnowledgeSearch.decisionId := .empty
  indexingDeadLetters : Table IndexingDeadLetter.deadLetterId := .empty
  deriving DecidableEq

/-! ## Orders -/

section Orders

variable {α K : Type} [LinearOrder K]

/-- The rows with the greatest key first, as `ORDER BY key DESC`. -/
def newestFirst (key : α → K) (rows : List α) : List α :=
  rows.insertionSort fun a b => key b ≤ key a

/-- The rows with the least key first, as `ORDER BY key ASC`. -/
def oldestFirst (key : α → K) (rows : List α) : List α :=
  rows.insertionSort fun a b => key a ≤ key b

@[simp]
theorem mem_newestFirst {key : α → K} {rows : List α} {a : α} :
    a ∈ newestFirst key rows ↔ a ∈ rows :=
  List.mem_insertionSort _

@[simp]
theorem mem_oldestFirst {key : α → K} {rows : List α} {a : α} :
    a ∈ oldestFirst key rows ↔ a ∈ rows :=
  List.mem_insertionSort _

theorem newestFirst_eq_nil {key : α → K} {rows : List α} :
    newestFirst key rows = [] ↔ rows = [] := by
  rw [← List.length_eq_zero_iff, newestFirst, List.length_insertionSort, List.length_eq_zero_iff]

/-- Inserting a row before rows at later positions, ties of the key broken by the position. -/
theorem map_orderedInsert_position {β : Type} {key : α → K} {f : β → α} {position : β → Nat} {b : β} :
    ∀ {rows : List β}, (∀ c ∈ rows, position b < position c) →
      (rows.orderedInsert (fun x y => toLex (key (f x), position x) ≤ toLex (key (f y), position y))
        b).map f = (rows.map f).orderedInsert (fun x y => key x ≤ key y) (f b)
  | [], _ => rfl
  | c :: rows, h => by
    have hle : toLex (key (f b), position b) ≤ toLex (key (f c), position c) ↔
        key (f b) ≤ key (f c) := by
      have hposition : position b ≤ position c := (h c List.mem_cons_self).le
      rw [Prod.Lex.toLex_le_toLex, and_iff_left hposition, le_iff_lt_or_eq (a := key (f b))]
    rw [List.map_cons, List.orderedInsert_cons, List.orderedInsert_cons]
    by_cases hkey : key (f b) ≤ key (f c)
    · rw [if_pos (hle.mpr hkey), if_pos hkey]
      rfl
    · rw [if_neg fun hk => hkey (hle.mp hk), if_neg hkey, List.map_cons,
        map_orderedInsert_position fun d hd => h d (List.mem_cons_of_mem _ hd)]

/-- Rows sorted by a key, ties broken by increasing positions, are sorted by the key alone : the
sort is stable. -/
theorem map_oldestFirst_position {β : Type} (key : α → K) {f : β → α} {position : β → Nat} :
    ∀ {rows : List β}, rows.Pairwise (fun x y => position x < position y) →
      (oldestFirst (fun x => toLex (key (f x), position x)) rows).map f =
        oldestFirst key (rows.map f)
  | [], _ => rfl
  | b :: rows, h => by
    obtain ⟨hlt, hrest⟩ := List.pairwise_cons.mp h
    have hinsert : ∀ c ∈ oldestFirst (fun x => toLex (key (f x), position x)) rows,
        position b < position c := fun c hc => hlt c (mem_oldestFirst.mp hc)
    exact (map_orderedInsert_position hinsert).trans
      (congrArg (List.orderedInsert _ (f b)) (map_oldestFirst_position key hrest))

end Orders

/-- The order of creation, ties broken by the identifier. -/
abbrev Recency := DateTime ×ₗ String

def SourceMessage.recency (s : SourceMessage) : Recency := toLex (s.createdAt, s.sourceMessageId)
def Note.recency (n : Note) : Recency := toLex (n.createdAt, n.noteId)
def EventChunk.recency (c : EventChunk) : Recency := toLex (c.createdAt, c.chunkId)
def IndexingDeadLetter.recency (d : IndexingDeadLetter) : Recency := toLex (d.createdAt, d.deadLetterId)

/-- `rows[:limit]`, or all of them. -/
def takeLimit {α : Type} (limit : Option Int) (rows : List α) : List α :=
  match limit with
  | none => rows
  | some limit => rows.take limit.toNat

theorem mem_of_mem_takeLimit {α : Type} {limit : Option Int} {rows : List α} {a : α}
    (h : a ∈ takeLimit limit rows) : a ∈ rows := by
  cases limit with
  | none => exact h
  | some limit => exact List.mem_of_mem_take h

namespace Tables

variable (T : Tables)

/-! ## Lookups -/

/-- The source row of a message key. -/
def sourceForKey (key : MessageKey) : Option SourceMessage :=
  T.sourceMessages.rows.find? fun s => s.messageKey = key

/-- Whether source row `id` is of the given external message. -/
def sourceIsFor (chat msg id : String) : Bool :=
  (T.sourceMessages.find? id).any fun s => s.externalChatId = chat ∧ s.externalMessageId = msg

def getNoteBySourceMessageId (id : String) : Option Note :=
  T.notes.rows.find? fun n => n.sourceMessageId = id

/-- The active notes of an external message in a community. -/
def activeNotesFor (chat msg community : String) : List Note :=
  T.notes.rows.filter fun n =>
    n.communityId = community ∧ n.lifecycleState = .active ∧ T.sourceIsFor chat msg n.sourceMessageId

/-- The most recent of them. -/
def getActiveNoteForExternalMessage (chat msg community : String) : Option Note :=
  (newestFirst Note.recency (T.activeNotesFor chat msg community)).head?

def countEventChunksForSource (id : String) : Nat :=
  T.eventChunks.rows.countP fun c => c.sourceMessageId = id

/-- The active chunks of a note in a community. -/
def activeChunksFor (noteId community : String) : List EventChunk :=
  T.eventChunks.rows.filter fun c =>
    c.noteId = noteId ∧ c.communityId = community ∧ c.lifecycleState = .active

/-- The most recent of them. -/
def getActiveChunkForNote (noteId community : String) : Option EventChunk :=
  (newestFirst EventChunk.recency (T.activeChunksFor noteId community)).head?

/-- The chunks of a community whose embedding failed, oldest first. -/
def failedChunks (community : String) : List EventChunk :=
  oldestFirst EventChunk.recency <| T.eventChunks.rows.filter fun c =>
    c.communityId = community ∧ c.embeddingStatus = .failed

def listFailedEventChunks (community : String) (limit : Option Int) : List EventChunk :=
  takeLimit limit (T.failedChunks community)

def listSourceMessages (community : String) (limit : Option Int) : List SourceMessage :=
  takeLimit limit <| oldestFirst SourceMessage.recency <|
    T.sourceMessages.rows.filter fun s => s.communityId = community

def listRecentDrafts (community : String) (limit : Int) : List SourceMessage :=
  takeLimit (some limit) <| newestFirst SourceMessage.recency <|
    T.sourceMessages.rows.filter fun s => s.communityId = community ∧ s.detectedRoute = .draft

/-- The note at an identifier, when the community owns it. -/
def ownedNote (id community : String) : Option Note :=
  (T.notes.find? id).filter fun n => n.communityId = community

/-- The chunk at an identifier, when the community owns it. -/
def ownedChunk (id community : String) : Option EventChunk :=
  (T.eventChunks.find? id).filter fun c => c.communityId = community

/-- The source row at an identifier, when the community owns it. -/
def ownedSource (id community : String) : Option SourceMessage :=
  (T.sourceMessages.find? id).filter fun s => s.communityId = community

/-! ## Writes -/

def putSource (s : SourceMessage) : Tables := { T with sourceMessages := T.sourceMessages.put s }

def putNote (n : Note) : Tables := { T with notes := T.notes.put n }

def putChunks (cs : List EventChunk) : Tables := { T with eventChunks := T.eventChunks.putAll cs }

def putChunk (c : EventChunk) : Tables := { T with eventChunks := T.eventChunks.put c }

def putRecords (rs : List EmbeddingRecord) : Tables :=
  { T with embeddingRecords := T.embeddingRecords.putAll rs }

def putDeadLetter (d : IndexingDeadLetter) : Tables :=
  { T with indexingDeadLetters := T.indexingDeadLetters.put d }

def putQuery (q : Query) : Tables := { T with queries := T.queries.put q }

def putHits (hs : List RetrievalHit) : Tables :=
  { T with retrievalHits := T.retrievalHits.putAll hs }

def putTrace (t : AnswerTrace) : Tables := { T with answerTraces := T.answerTraces.put t }

def putDecision (d : ChatRouteDecision) : Tables :=
  { T with chatRouteDecisions := T.chatRouteDecisions.put d }

def putRewrite (r : ChatQueryRewrite) : Tables :=
  { T with chatQueryRewrites := T.chatQueryRewrites.put r }

def putSearch (s : ChatKnowledgeSearch) : Tables :=
  { T with chatKnowledgeSearches := T.chatKnowledgeSearches.put s }

/-- Move note `id` to a lifecycle state. -/
def markNote (state : LifecycleState) (id : String) : Tables :=
  { T with notes := T.notes.adjust id (Note.withState state) }

/-- Move chunk `id` to a lifecycle state. -/
def markChunk (state : LifecycleState) (id : String) : Tables :=
  { T with eventChunks := T.eventChunks.adjust id (EventChunk.withState state) }

/-- Set the embedding status of chunk `id`. -/
def setStatus (id : String) (status : EmbeddingStatus) : Tables :=
  { T with eventChunks := T.eventChunks.adjust id (EventChunk.withStatus status) }

/-- Whether `id` is a chunk of source row `source`. -/
def chunkIsOf (source id : String) : Bool :=
  (T.eventChunks.find? id).any fun c => c.sourceMessageId = source

/-- Drop the retrieval hits of the chunks of a source row. -/
def dropHits (id : String) : Tables :=
  { T with retrievalHits := T.retrievalHits.discard fun h => T.chunkIsOf id h.chunkId }

def dropRecords (id : String) : Tables :=
  { T with embeddingRecords := T.embeddingRecords.discard fun r => r.sourceMessageId = id }

def dropChunks (id : String) : Tables :=
  { T with eventChunks := T.eventChunks.discard fun c => c.sourceMessageId = id }

def dropNotes (id : String) : Tables :=
  { T with notes := T.notes.discard fun n => n.sourceMessageId = id }

def dropSource (id : String) : Tables :=
  { T with sourceMessages := T.sourceMessages.discard fun s => s.sourceMessageId = id }

/-- Drop a source row with the notes, chunks, embedding records and retrieval hits
derived from it. -/
def removeSource (id : String) : Tables :=
  ((((T.dropHits id).dropRecords id).dropChunks id).dropNotes id).dropSource id

/-- The rows `removeSource` drops, by table. -/
def removalTally (id : String) : HardDeleteOutcome where
  sourceMessages := T.sourceMessages.rows.countP fun s => s.sourceMessageId = id
  notes := T.notes.rows.countP fun n => n.sourceMessageId = id
  eventChunks := T.eventChunks.rows.countP fun c => c.sourceMessageId = id
  embeddingRecords := T.embeddingRecords.rows.countP fun r => r.sourceMessageId = id
  retrievalHits := T.retrievalHits.rows.countP fun h => T.chunkIsOf id h.chunkId

/-! ## What the lookups find -/

variable {T} {chat msg community id : String}

theorem sourceIsFor_iff : T.sourceIsFor chat msg id = true ↔
    ∃ s ∈ T.sourceMessages, s.sourceMessageId = id ∧ s.externalChatId = chat ∧
      s.externalMessageId = msg := by
  rw [sourceIsFor, Option.any_eq_true]
  constructor
  · rintro ⟨s, hs, hp⟩
    obtain ⟨hm, hk⟩ := Table.find?_eq_some_iff.mp hs
    exact ⟨s, hm, hk, by simpa using hp⟩
  · rintro ⟨s, hm, hk, hp⟩
    exact ⟨s, Table.find?_eq_some_iff.mpr ⟨hm, hk⟩, by simpa using hp⟩

theorem mem_activeNotesFor {n : Note} : n ∈ T.activeNotesFor chat msg community ↔
    n ∈ T.notes ∧ n.communityId = community ∧ n.lifecycleState = .active ∧
      T.sourceIsFor chat msg n.sourceMessageId = true := by
  simp [activeNotesFor]

theorem mem_activeChunksFor {c : EventChunk} : c ∈ T.activeChunksFor id community ↔
    c ∈ T.eventChunks ∧ c.noteId = id ∧ c.communityId = community ∧
      c.lifecycleState = .active := by
  simp [activeChunksFor]

theorem mem_of_getActiveNote {n : Note}
    (h : T.getActiveNoteForExternalMessage chat msg community = some n) :
    n ∈ T.activeNotesFor chat msg community :=
  mem_newestFirst.mp (List.mem_of_head? h)

theorem getActiveNote_eq_none : T.getActiveNoteForExternalMessage chat msg community = none ↔
    T.activeNotesFor chat msg community = [] := by
  rw [getActiveNoteForExternalMessage, List.head?_eq_none_iff, newestFirst_eq_nil]

theorem mem_of_getActiveChunk {c : EventChunk}
    (h : T.getActiveChunkForNote id community = some c) :
    c ∈ T.activeChunksFor id community :=
  mem_newestFirst.mp (List.mem_of_head? h)

theorem getActiveChunk_eq_none : T.getActiveChunkForNote id community = none ↔
    T.activeChunksFor id community = [] := by
  rw [getActiveChunkForNote, List.head?_eq_none_iff, newestFirst_eq_nil]

theorem sourceForKey_eq_none {key : MessageKey} : T.sourceForKey key = none ↔
    ∀ s ∈ T.sourceMessages, s.messageKey ≠ key := by
  simp [sourceForKey, List.find?_eq_none]

theorem mem_of_sourceForKey {key : MessageKey} {s : SourceMessage}
    (h : T.sourceForKey key = some s) : s ∈ T.sourceMessages ∧ s.messageKey = key :=
  ⟨List.mem_of_find?_eq_some h, by simpa using List.find?_some h⟩

theorem mem_failedChunks {c : EventChunk} : c ∈ T.failedChunks community ↔
    c ∈ T.eventChunks ∧ c.communityId = community ∧ c.embeddingStatus = .failed := by
  simp [failedChunks]

theorem listFailedEventChunks_sublist (T : Tables) (community : String) (limit : Option Int) :
    (T.listFailedEventChunks community limit).Sublist (T.failedChunks community) := by
  unfold listFailedEventChunks takeLimit
  split
  · exact List.Sublist.refl _
  · exact List.take_sublist _ _

/-- The failed chunks of a community are distinct. -/
theorem nodup_listFailedEventChunks (T : Tables) (community : String) (limit : Option Int) :
    ((T.listFailedEventChunks community limit).map EventChunk.chunkId).Nodup := by
  refine List.Nodup.sublist ((T.listFailedEventChunks_sublist community limit).map _) ?_
  refine ((List.perm_insertionSort _ _).map EventChunk.chunkId).nodup_iff.mpr ?_
  exact T.eventChunks.nodup.sublist (List.filter_sublist.map _)

theorem ownedNote_eq_some {n : Note} : T.ownedNote id community = some n ↔
    n ∈ T.notes ∧ n.noteId = id ∧ n.communityId = community := by
  rw [ownedNote, Option.filter_eq_some_iff, Table.find?_eq_some_iff, and_assoc, decide_eq_true_iff]

theorem ownedChunk_eq_some {c : EventChunk} : T.ownedChunk id community = some c ↔
    c ∈ T.eventChunks ∧ c.chunkId = id ∧ c.communityId = community := by
  rw [ownedChunk, Option.filter_eq_some_iff, Table.find?_eq_some_iff, and_assoc, decide_eq_true_iff]

theorem ownedSource_eq_some {s : SourceMessage} : T.ownedSource id community = some s ↔
    s ∈ T.sourceMessages ∧ s.sourceMessageId = id ∧ s.communityId = community := by
  rw [ownedSource, Option.filter_eq_some_iff, Table.find?_eq_some_iff, and_assoc,
    decide_eq_true_iff]

theorem chunkIsOf_iff {source : String} : T.chunkIsOf source id = true ↔
    ∃ c ∈ T.eventChunks, c.chunkId = id ∧ c.sourceMessageId = source := by
  rw [chunkIsOf, Option.any_eq_true]
  constructor
  · rintro ⟨c, hc, hp⟩
    obtain ⟨hm, hk⟩ := Table.find?_eq_some_iff.mp hc
    exact ⟨c, hm, hk, by simpa using hp⟩
  · rintro ⟨c, hm, hk, hp⟩
    exact ⟨c, Table.find?_eq_some_iff.mpr ⟨hm, hk⟩, by simpa using hp⟩

/-! ## What the writes change -/

theorem mem_markNote {state : LifecycleState} {x : Note} :
    x ∈ (T.markNote state id).notes ↔
      ∃ n ∈ T.notes, x = if n.noteId = id then n.withState state else n :=
  Table.mem_adjust (f := Note.withState state) fun _ => rfl

theorem mem_markChunk {state : LifecycleState} {x : EventChunk} :
    x ∈ (T.markChunk state id).eventChunks ↔
      ∃ c ∈ T.eventChunks, x = if c.chunkId = id then c.withState state else c :=
  Table.mem_adjust (f := EventChunk.withState state) fun _ => rfl

theorem mem_setStatus {status : EmbeddingStatus} {x : EventChunk} :
    x ∈ (T.setStatus id status).eventChunks ↔
      ∃ c ∈ T.eventChunks, x = if c.chunkId = id then c.withStatus status else c :=
  Table.mem_adjust (f := EventChunk.withStatus status) fun _ => rfl

end Tables

end DiaryMemory
