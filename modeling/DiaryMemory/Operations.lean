import DiaryMemory.Dispatching
import DiaryMemory.Retrying

/-!
# Runs of the services

An `Operation` is one request to one of the services. `runAll` runs requests one after
the other, each on the world the one before left, whatever they return. Between two
requests the world is sound (`sound_runAll`), and each of them makes its calls as it
promised (`Operation.run_spec`).

`runAll_induction` carries an invariant along a run.
-/

namespace DiaryMemory

/-- One request, with the clients of the service it goes to. -/
inductive Operation where
  | ingest (service : DomainService) (message : InboundMessage)
  | delete (chat target community : String)
  | retry (service : ReconciliationService) (community : String) (limit : Option Int)
  | hardDelete (id community : String)
  | ask (service : QueryService) (message : InboundMessage) (dateRange : Option DateRange)
      (subjectScope : Option String)
  | chat (service : RoutedChatService) (message : InboundMessage) (subjectScope : Option String)
  | dispatch (dispatcher : Dispatcher) (message : InboundMessage)

namespace Operation

/-- The world a request leaves. -/
def run (B : Backend) (env : Env) (w : World B.State) : Operation → World B.State
  | ingest service message => ((service.ingest message).exec B env w).2
  | delete externalChat target community =>
    ((DomainService.deleteNoteForExternalMessage externalChat target community).exec B env w).2
  | retry service community limit => ((service.retryFailedChunks community limit).exec B env w).2
  | hardDelete id community => ((DomainService.hardDeleteSourceMessage id community).exec B env w).2
  | ask service message dateRange subjectScope =>
    ((service.answer message dateRange subjectScope).exec B env w).2
  | chat service message subjectScope => ((service.chat message subjectScope).exec B env w).2
  | dispatch dispatcher message => ((dispatcher.dispatch message).exec B env w).2

/-- What a request promises of its calls, on the rows `T₀` it starts from. -/
def Promise (env : Env) (T₀ : Tables) : Operation → Call → Tables → Prop
  | ingest service message =>
    IngestPromise env service.embeddingClient message.communityId T₀
  | delete _ _ community => DeleteCall community
  | retry service community limit => RetryCall env service.embeddingClient community limit T₀
  | hardDelete id community => fun c _ => c = .repo (.hardDeleteSourceMessage id community)
  | ask _ message .. | chat _ message .. => AnswerCall message.communityId
  | dispatch dispatcher message => DispatchCall env dispatcher message T₀

/-- Ingests, deletes, retries and hard deletes : the requests that write content. -/
def OnContent : Operation → Prop
  | ingest .. | delete .. | retry .. | hardDelete .. => True
  | _ => False

end Operation

/-- Run requests one after the other. -/
def runAll (B : Backend) (env : Env) (w : World B.State) (ops : List Operation) : World B.State :=
  ops.foldl (Operation.run B env) w

theorem runAll_append (B : Backend) (env : Env) (w : World B.State) (ops ops' : List Operation) :
    runAll B env w (ops ++ ops') = runAll B env (runAll B env w ops) ops' :=
  List.foldl_append

/-! ## An environment in which nothing fails -/

/-- A search that takes every text for one token. -/
def SearchEngine.plain : SearchEngine where
  tokenize text := [text]
  distance _ _ := 0
  ftsMatches query text := query = text
  ftsRank _ _ := 0

/-- Every call is answered, by providers that always answer the same. -/
def Env.steady : Env where
  uuid n := String.ofList (List.replicate n 'x')
  uuid_injective n m h := by
    have hlength := congrArg List.length (String.ofList_injective h)
    simpa using hlength
  now n := ⟨.mayNinth, 0, 0, 0, n % 1000000,
    by decide, by decide, by decide, Nat.mod_lt _ (by decide)⟩
  storeFails _ _ := none
  embed _ texts := .ok (texts.map fun _ => [1])
  complete _ _ := .ok ⟨"", "model", [], 0⟩
  classify _ _ := .ok ⟨.notesLookup, "", "model", 0⟩
  rewrite _ question _ := .ok ⟨question, none, none, "", "model", 0⟩
  rewriteOutward _ question _ := .ok ⟨question, "", "model", 0⟩
  search _ _ := .ok ⟨[], "", 0⟩

theorem Env.steady_reliable : Env.steady.Reliable := fun _ _ => rfl

theorem ok_of_toOption {α : Type} {r : Except Exn α} {a : α} (h : r.toOption = some a) :
    r = .ok a := by
  cases r with
  | error e => cases h
  | ok b => exact congrArg Except.ok (Option.some.inj h)

/-- A message of one chat, from one user of one community. -/
def InboundMessage.plain (route : RouteKind) (payload : String) (editSeq : Int) : InboundMessage where
  externalMessageId := "message"
  externalChatId := "chat"
  externalUserId := "user"
  communityId := "community"
  route := route
  receivedAt := Env.steady.now 0
  payload := payload
  editSeq := editSeq

section Runs

variable {kind : StoreKind} {engine : SearchEngine} {env : Env}
  {w : World (kind.backend engine).State}

/-! ## What one request does -/

theorem ingest_outcome (hs : Sound env w) (service : DomainService) (message : InboundMessage) :
    IngestOutcome env service message w
      ((service.ingest message).exec (kind.backend engine) env w).1
      ((service.ingest message).exec (kind.backend engine) env w).2 :=
  (Proc.exec_of_wp hs (wp_ingest hs fun _ _ h => h)).2.2

theorem delete_outcome (hs : Sound env w) (chat target community : String) :
    Completes env (removalCalls w.rows chat target community
        (w.rows.getActiveNoteForExternalMessage chat target community)) w
      (· = deleteOutcome (w.rows.getActiveNoteForExternalMessage chat target community))
      ((DomainService.deleteNoteForExternalMessage chat target community).exec
        (kind.backend engine) env w).1
      ((DomainService.deleteNoteForExternalMessage chat target community).exec
        (kind.backend engine) env w).2 :=
  (Proc.exec_of_wp hs (wp_deleteNote hs chat target community fun _ _ h => h)).2.2

/-- The rows after a removal that found a note. -/
theorem delete_rows (hs : Sound env w) {chat target community : String} {outcome : DeleteOutcome}
    (h : ((DomainService.deleteNoteForExternalMessage chat target community).exec
      (kind.backend engine) env w).1 = .ok outcome) (hdeleted : outcome.deleted = true) :
    ∃ n, w.rows.getActiveNoteForExternalMessage chat target community = some n ∧
      ((DomainService.deleteNoteForExternalMessage chat target community).exec
        (kind.backend engine) env w).2.rows =
      w.rows.flip .tombstoned (some n) (w.rows.activeChunkOf community (some n)) := by
  have hout := delete_outcome hs chat target community
  rw [h] at hout
  obtain ⟨houtcome, hp⟩ := hout
  cases hfind : w.rows.getActiveNoteForExternalMessage chat target community with
  | none =>
    rw [houtcome, hfind] at hdeleted
    cases hdeleted
  | some n =>
    rw [hp.rows, effects_removalCalls, hfind]
    exact ⟨n, rfl, rfl⟩

theorem retry_outcome (hs : Sound env w) (service : ReconciliationService) (community : String)
    (limit : Option Int) : RetryOutcome env service community limit w
      ((service.retryFailedChunks community limit).exec (kind.backend engine) env w).1
      ((service.retryFailedChunks community limit).exec (kind.backend engine) env w).2 :=
  (Proc.exec_of_wp hs (wp_retryFailedChunks service fun _ _ h => h)).2.2

/-- Where a hard delete may end. -/
def HardDeleteEnd (env : Env) (id community : String) (w : World (kind.backend engine).State) :
    Except Exn HardDeleteOutcome → World (kind.backend engine).State → Prop
  | .ok v, w' => Returned env (.hardDeleteSourceMessage id community) w v w'
  | .error e, w' => Raised env (.hardDeleteSourceMessage id community) w e w'

theorem wp_hardDelete {id community : String} {P : Call → Tables → Prop}
    (hP : ∀ T, P (.repo (.hardDeleteSourceMessage id community)) T) :
    wp (contract kind engine env P) (DomainService.hardDeleteSourceMessage id community)
      (HardDeleteEnd env id community w) w :=
  wp_repo ⟨trivial, nofun⟩ (hP _) (fun _ _ _ h => h) fun _ _ _ h => h

theorem hardDelete_outcome (hs : Sound env w) (id community : String) :
    HardDeleteEnd env id community w
      ((DomainService.hardDeleteSourceMessage id community).exec (kind.backend engine) env w).1
      ((DomainService.hardDeleteSourceMessage id community).exec (kind.backend engine) env w).2 :=
  (Proc.exec_of_wp hs (P := fun _ _ => True) (wp_hardDelete fun _ => trivial)).2.2

/-- A request draws identifiers and gives none back. -/
theorem Operation.draws_run (B : Backend) (env : Env) (w : World B.State) (o : Operation) :
    w.draws ≤ (o.run B env w).draws := by
  cases o <;> exact Proc.draws_exec B env _ w

/-! ## Runs -/

/-- A request leaves a sound world, and makes its calls as promised. -/
theorem Operation.run_spec (hs : Sound env w) (o : Operation) :
    Sound env (o.run (kind.backend engine) env w) ∧
      Continues (o.Promise env w.rows) w (o.run (kind.backend engine) env w) := by
  have hexec : ∀ {α : Type} {p : Proc α} {P : Call → Tables → Prop}
      {Q : Except Exn α → World (kind.backend engine).State → Prop},
      wp (contract kind engine env P) p Q w →
      Sound env (p.exec (kind.backend engine) env w).2 ∧
        Continues P w (p.exec (kind.backend engine) env w).2 := fun h =>
    ⟨(Proc.exec_of_wp hs h).1, (Proc.exec_of_wp hs h).2.1⟩
  cases o with
  | ingest service message => exact hexec (wp_ingest hs fun _ _ h => h)
  | delete chat target community => exact hexec (wp_deleteNote hs _ _ _ fun _ _ h => h)
  | retry service community limit => exact hexec (wp_retryFailedChunks service fun _ _ h => h)
  | hardDelete id community =>
    exact hexec (P := fun c _ => c = _) (wp_hardDelete fun _ => rfl)
  | ask service message dateRange subjectScope => exact hexec (wp_answer message _ _ hs)
  | chat service message subjectScope => exact hexec (wp_chat hs)
  | dispatch dispatcher message => exact hexec (wp_dispatch hs)

theorem sound_runAll (hs : Sound env w) (ops : List Operation) :
    Sound env (runAll (kind.backend engine) env w ops) := by
  induction ops generalizing w with
  | nil => exact hs
  | cons o ops ih => exact ih (Operation.run_spec hs o).1

theorem sound_run (env : Env) (ops : List Operation) :
    Sound env (runAll (kind.backend engine) env (World.initial kind engine) ops) :=
  sound_runAll (sound_initial kind engine env) ops

/-- What holds at first and is kept by each request holds after all of them. -/
theorem runAll_induction {I : World (kind.backend engine).State → Prop} {ops : List Operation}
    (hs : Sound env w) (hI : I w)
    (hstep : ∀ o ∈ ops, ∀ v, Sound env v → I v → I (o.run (kind.backend engine) env v)) :
    I (runAll (kind.backend engine) env w ops) := by
  induction ops generalizing w with
  | nil => exact hI
  | cons o ops ih =>
    exact ih (Operation.run_spec hs o).1 (hstep o List.mem_cons_self w hs hI) fun o' ho' =>
      hstep o' (List.mem_cons_of_mem _ ho')

end Runs

end DiaryMemory
