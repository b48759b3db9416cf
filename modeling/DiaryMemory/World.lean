import DiaryMemory.Effects
import DiaryMemory.SqlStore

/-!
# What a service can call, and what answers

A service is a program over `Call` : the operations of its repository, fresh
identifiers, the clock, and the providers of embeddings and text. `Env` is everything
the program does not control : which identifiers are drawn (never the same twice),
what the clock reads, what the providers answer, and which repository calls fail
before they commit anything.

A `Backend` is one of the stores with a view of its rows. `World` is its state
together with the identifiers drawn so far, the calls made so far, and the dispatcher's
cache of cited chunks; `serve` answers one call.
-/

namespace DiaryMemory

/-- A call that does not touch the store. The texts of an `embed` call are those of the
given chunks; `embedQuery` embeds the text of a question. -/
inductive SystemCall where
  | uuid4
  | now
  | embed (chunks : List EventChunk)
  | embedQuery (text : String)
  | complete (prompt : AnswerPrompt)
  | classify (question : String)
  | rewrite (question : String) (today : Date)
  | rewriteOutward (question : String) (notesContext : List String)
  | search (query : String)
  | getLatestSources (community : String)
  | setLatestSources (community : String) (chunks : List EventChunk)
  deriving DecidableEq

/-- What such a call returns. -/
def SystemReply : SystemCall → Type
  | .uuid4 => String
  | .now => DateTime
  | .embed _ | .embedQuery _ => Except Exn (List Vec)
  | .complete _ => Except Exn ChatResponse
  | .classify _ => Except Exn RouteClassification
  | .rewrite .. => Except Exn QueryRewrite
  | .rewriteOutward .. => Except Exn OutwardRewrite
  | .search _ => Except Exn KnowledgeResult
  | .getLatestSources _ => Option (List EventChunk)
  | .setLatestSources .. => Unit

/-- One call of a service. -/
inductive Call where
  | repo (c : RepoCall)
  | sys (c : SystemCall)
  deriving DecidableEq

/-- What a call returns; a repository call may raise instead. -/
def Reply : Call → Type
  | .repo c => Except Exn (RepoReply c)
  | .sys c => SystemReply c

/-- A service procedure : it returns a value or raises. -/
abbrev Proc (α : Type) := ExceptT Exn (Prog Call Reply) α

namespace Proc

/-- A repository call. -/
def repo (c : RepoCall) : Proc (RepoReply c) := attempt (Prog.perform (R := Reply) (.repo c))

/-- A call outside the store. -/
def sys (c : SystemCall) : Prog Call Reply (SystemReply c) := Prog.perform (R := Reply) (.sys c)

/-- `str(uuid4())`. -/
def uuid4 : Proc String := ask (sys .uuid4)

/-- `datetime.now(tz=UTC)`. -/
def now : Proc DateTime := ask (sys .now)

def embed (chunks : List EventChunk) : Proc (List Vec) := attempt (sys (.embed chunks))

def embedQuery (text : String) : Proc (List Vec) := attempt (sys (.embedQuery text))

def complete (prompt : AnswerPrompt) : Proc ChatResponse := attempt (sys (.complete prompt))

def classify (question : String) : Proc RouteClassification := attempt (sys (.classify question))

def rewrite (question : String) (today : Date) : Proc QueryRewrite :=
  attempt (sys (.rewrite question today))

def rewriteOutward (question : String) (notesContext : List String) : Proc OutwardRewrite :=
  attempt (sys (.rewriteOutward question notesContext))

def search (query : String) : Proc KnowledgeResult := attempt (sys (.search query))

def getLatestSources (community : String) : Proc (Option (List EventChunk)) :=
  ask (sys (.getLatestSources community))

def setLatestSources (community : String) (chunks : List EventChunk) : Proc Unit :=
  ask (sys (.setLatestSources community chunks))

abbrev getOrCreateSourceMessage (source : SourceMessage) : Proc (SourceMessage × Bool) :=
  repo (.getOrCreateSourceMessage source)

abbrev saveNote (note : Note) : Proc Unit := repo (.saveNote note)

abbrev saveEventChunks (chunks : List EventChunk) : Proc Unit := repo (.saveEventChunks chunks)

abbrev listSourceMessages (community : String) (limit : Option Int) : Proc (List SourceMessage) :=
  repo (.listSourceMessages community limit)

abbrev listRecentDrafts (community : String) (limit : Int) : Proc (List SourceMessage) :=
  repo (.listRecentDrafts community limit)

abbrev getNoteBySourceMessageId (id : String) : Proc (Option Note) :=
  repo (.getNoteBySourceMessageId id)

abbrev getActiveNoteForExternalMessage (chat msg community : String) : Proc (Option Note) :=
  repo (.getActiveNoteForExternalMessage chat msg community)

abbrev countEventChunksForSource (id : String) : Proc Nat := repo (.countEventChunksForSource id)

abbrev getActiveChunkForNote (noteId community : String) : Proc (Option EventChunk) :=
  repo (.getActiveChunkForNote noteId community)

abbrev saveEmbeddingRecords (records : List EmbeddingRecord) : Proc Unit :=
  repo (.saveEmbeddingRecords records)

abbrev setChunkEmbeddingStatus (id : String) (status : EmbeddingStatus) : Proc Unit :=
  repo (.setChunkEmbeddingStatus id status)

abbrev markNoteSuperseded (id community : String) : Proc Unit :=
  repo (.markNote .superseded id community)

abbrev markChunkSuperseded (id community : String) : Proc Unit :=
  repo (.markChunk .superseded id community)

abbrev markNoteTombstoned (id community : String) : Proc Unit :=
  repo (.markNote .tombstoned id community)

abbrev markChunkTombstoned (id community : String) : Proc Unit :=
  repo (.markChunk .tombstoned id community)

abbrev hardDeleteSourceMessage (id community : String) : Proc HardDeleteOutcome :=
  repo (.hardDeleteSourceMessage id community)

abbrev listFailedEventChunks (community : String) (limit : Option Int) : Proc (List EventChunk) :=
  repo (.listFailedEventChunks community limit)

abbrev saveIndexingDeadLetter (record : IndexingDeadLetter) : Proc Unit :=
  repo (.saveIndexingDeadLetter record)

abbrev denseCandidates (queryEmbedding : Vec) (modelName : String) (scope : SearchScope) :
    Proc (List EventChunk) :=
  repo (.denseCandidates queryEmbedding modelName scope)

abbrev sparseCandidates (queryText : String) (scope : SearchScope) : Proc (List EventChunk) :=
  repo (.sparseCandidates queryText scope)

abbrev saveQuery (query : Query) : Proc Unit := repo (.saveQuery query)

abbrev saveRetrievalHits (hits : List RetrievalHit) : Proc Unit := repo (.saveRetrievalHits hits)

abbrev saveAnswerTrace (trace : AnswerTrace) : Proc Unit := repo (.saveAnswerTrace trace)

abbrev saveChatRouteDecision (decision : ChatRouteDecision) : Proc Unit :=
  repo (.saveChatRouteDecision decision)

abbrev saveChatQueryRewrite (rewrite : ChatQueryRewrite) : Proc Unit :=
  repo (.saveChatQueryRewrite rewrite)

abbrev saveChatKnowledgeSearch (search : ChatKnowledgeSearch) : Proc Unit :=
  repo (.saveChatKnowledgeSearch search)

end Proc

/-! ## Stores -/

/-- A store : its states, how it serves a call, and the rows it holds. -/
structure Backend where
  State : Type
  init : State
  tables : State → Tables
  handle : (c : RepoCall) → State → Except Exn (RepoReply c) × State

/-- The three stores. -/
inductive StoreKind where
  | mock
  | sql (dialect : SqlDialect)
  deriving DecidableEq

/-- The backend of a kind of store. -/
def StoreKind.backend (engine : SearchEngine) : StoreKind → Backend
  | mock => ⟨MockDomainStore, {}, MockDomainStore.toTables, MockDomainStore.handle engine⟩
  | sql dialect => ⟨SqlDomainStore, ({} : Tables), id, SqlDomainStore.handle dialect engine⟩

/-! ## The environment -/

/-- What the services do not control. The first argument of each oracle is the number
of calls made before. -/
structure Env where
  uuid : Nat → String
  uuid_injective : Function.Injective uuid
  now : Nat → DateTime
  storeFails : Nat → RepoCall → Option Exn
  embed : Nat → List String → Except Exn (List Vec)
  complete : Nat → AnswerPrompt → Except Exn ChatResponse
  classify : Nat → String → Except Exn RouteClassification
  rewrite : Nat → String → Date → Except Exn QueryRewrite
  rewriteOutward : Nat → String → List String → Except Exn OutwardRewrite
  search : Nat → String → Except Exn KnowledgeResult

/-- No repository call fails by itself. -/
def Env.Reliable (env : Env) : Prop := ∀ n c, env.storeFails n c = none

/-- One call that was made : the rows it found, and whether it raised. -/
structure Event where
  before : Tables
  call : Call
  raised : Bool

/-- The cache of the dispatcher : the chunks cited by the latest answer of a community. -/
abbrev LatestSources := Table (Prod.fst : String × List EventChunk → String)

/-- A state of the system. -/
structure World (S : Type) where
  store : S
  draws : Nat := 0
  log : List Event := []
  latestSources : LatestSources := .empty

namespace World

variable {S : Type}

/-- The number of calls made so far. -/
def tick (w : World S) : Nat := w.log.length

/-- The same world over another state of the store. -/
def withStore {S' : Type} (w : World S) (s : S') : World S' := { w with store := s }

/-- The world after a call. -/
def record (w : World S) (before : Tables) (call : Call) (raised : Bool) : World S :=
  { w with log := w.log ++ [⟨before, call, raised⟩] }

end World

/-- Answer a call that does not touch the store. -/
def answer {S : Type} (env : Env) : (c : SystemCall) → World S → SystemReply c × World S
  | .uuid4, w => (env.uuid w.draws, { w with draws := w.draws + 1 })
  | .now, w => (env.now w.tick, w)
  | .embed chunks, w => (env.embed w.tick (chunks.map EventChunk.chunkText), w)
  | .embedQuery text, w => (env.embed w.tick [text], w)
  | .complete prompt, w => (env.complete w.tick prompt, w)
  | .classify question, w => (env.classify w.tick question, w)
  | .rewrite question today, w => (env.rewrite w.tick question today, w)
  | .rewriteOutward question context, w => (env.rewriteOutward w.tick question context, w)
  | .search query, w => (env.search w.tick query, w)
  | .getLatestSources community, w => ((w.latestSources.find? community).map Prod.snd, w)
  | .setLatestSources community chunks, w =>
    ((), { w with latestSources := w.latestSources.put (community, chunks) })

/-- Whether a reply is an exception. -/
def isRaise {α : Type} : Except Exn α → Bool
  | .ok _ => false
  | .error _ => true

/-- Whether a repository call raised; the outcomes of other calls are not recorded. -/
def raised : (c : Call) → Reply c → Bool
  | .repo _, r => isRaise r
  | .sys _, _ => false

/-- Answer a repository call : it fails by itself, or the store serves it. -/
def serveRepo (B : Backend) (env : Env) (c : RepoCall) (w : World B.State) :
    Except Exn (RepoReply c) × World B.State :=
  match env.storeFails w.tick c with
  | some e => (.error e, w)
  | none =>
    let r := B.handle c w.store
    (r.1, w.withStore r.2)

/-- Answer a call. -/
def respond (B : Backend) (env : Env) : (c : Call) → World B.State → Reply c × World B.State
  | .repo c, w => serveRepo B env c w
  | .sys c, w => answer env c w

/-- Answer a call and record it. -/
def serve (B : Backend) (env : Env) (c : Call) (w : World B.State) : Reply c × World B.State :=
  let r := respond B env c w
  (r.1, r.2.record (B.tables w.store) c (raised c r.1))

theorem tick_serve (B : Backend) (env : Env) (c : Call) (w : World B.State) :
    (serve B env c w).2.tick = w.tick + 1 := by
  cases c with
  | repo c =>
    simp only [serve, respond, serveRepo]
    cases env.storeFails w.tick c <;> simp [World.tick, World.record, World.withStore]
  | sys c => cases c <;> simp [serve, respond, answer, World.tick, World.record]

/-- Run a procedure. -/
def Proc.exec {α : Type} (B : Backend) (env : Env) (p : Proc α) (w : World B.State) :
    Except Exn α × World B.State :=
  Prog.run (serve B env) p.run w

/-- A part of a procedure that returned, then the rest. -/
theorem Proc.exec_bind_ok {α β : Type} {B : Backend} {env : Env} {p : Proc α} {f : α → Proc β}
    {w w' : World B.State} {a : α} (h : p.exec B env w = (.ok a, w')) :
    (p >>= f).exec B env w = (f a).exec B env w' := by
  have hrun : Prog.run (serve B env) p.run w = (.ok a, w') := h
  refine (Prog.run_bind (serve B env) p.run _ w).trans ?_
  rw [hrun]
  rfl

/-- A part of a procedure that raised. -/
theorem Proc.exec_bind_error {α β : Type} {B : Backend} {env : Env} {p : Proc α} {f : α → Proc β}
    {w w' : World B.State} {e : Exn} (h : p.exec B env w = (.error e, w')) :
    (p >>= f).exec B env w = (.error e, w') := by
  have hrun : Prog.run (serve B env) p.run w = (.error e, w') := h
  refine (Prog.run_bind (serve B env) p.run _ w).trans ?_
  rw [hrun]
  rfl

/-- A procedure that returned went through its first part. -/
theorem Proc.ok_of_exec_bind {α β : Type} {B : Backend} {env : Env} {p : Proc α} {f : α → Proc β}
    {w w' : World B.State} {b : β} (h : (p >>= f).exec B env w = (.ok b, w')) :
    ∃ a w₁, p.exec B env w = (.ok a, w₁) ∧ (f a).exec B env w₁ = (.ok b, w') := by
  obtain ⟨x, w₁, hexec⟩ : ∃ x w₁, p.exec B env w = (x, w₁) := ⟨_, _, rfl⟩
  cases x with
  | error e =>
    rw [exec_bind_error hexec] at h
    cases h
  | ok a => exact ⟨a, w₁, hexec, (exec_bind_ok hexec).symm.trans h⟩

theorem Proc.exec_capture {α : Type} {B : Backend} {env : Env} (p : Proc α) (w : World B.State) :
    Proc.exec B env (capture p) w = (.ok (p.exec B env w).1, (p.exec B env w).2) :=
  Prog.run_bind (serve B env) p.run _ w

end DiaryMemory
