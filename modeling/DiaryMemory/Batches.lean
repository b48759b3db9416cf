import DiaryMemory.Grouping
import DiaryMemory.Operations

/-!
# The batches of a retry

`retryFailedChunks` embeds the failed chunks of each source row as one batch, whatever rows
the store holds and whichever call fails. What it does is followed against `ledgerContract`,
which asks nothing of the store : the rows may be of any kind, and a refused call may have
stored a part of its records.

A batch stores its records before it flips its chunks, one after the other, so a flip that
fails leaves the chunks before it ready in a batch that is reported as failed. The report
tells what became of the chunks exactly when only first chunks of a batch fail to flip
(`retry_accounts_iff`).
-/

namespace DiaryMemory

/-! ## The calls of a retry on any store -/

/-- What a retry sees of a world : the rows, and the calls that raised. -/
structure Ledger where
  rows : Tables
  failures : List RepoCall

/-- Records were added to the rows, all of them of `rs`. -/
structure Tables.AddsRecords (T : Tables) (rs : List EmbeddingRecord) (T' : Tables) : Prop where
  elsewhere : T' = { T with embeddingRecords := T'.embeddingRecords }
  kept : ∀ r ∈ T.embeddingRecords, r ∈ T'.embeddingRecords
  new : ∀ r ∈ T'.embeddingRecords, r ∈ T.embeddingRecords ∨ r ∈ rs

theorem Tables.AddsRecords.refl (T : Tables) (rs : List EmbeddingRecord) : T.AddsRecords rs T where
  elsewhere := rfl
  kept _ h := h
  new _ h := Or.inl h

/-- What a call of a retry does on any rows, with or without the links between them. -/
def RepoCall.Does : (c : RepoCall) → Except Exn (RepoReply c) → Tables → Tables → Prop
  | .listFailedEventChunks community limit, r, T, T' =>
    T' = T ∧ ∀ chunks, r = .ok chunks → chunks = T.listFailedEventChunks community limit
  | .saveEmbeddingRecords rs, r, T, T' =>
    T.AddsRecords rs T' ∧ (r = .ok () → ∀ x ∈ rs, x ∈ T'.embeddingRecords)
  | .setChunkEmbeddingStatus id status, r, T, T' =>
    (∀ e, r = .error e → T' = T) ∧ (r = .ok () → T' = T.setStatus id status)
  | .saveIndexingDeadLetter d, r, T, T' => (∀ e, r = .error e → T' = T) ∧
    (r = .ok () → (∀ x ∈ T.indexingDeadLetters, x.deadLetterId ≠ d.deadLetterId) ∧
      T' = T.putDeadLetter d)
  | _, _, _, _ => True

/-- A call that raised and left the rows alone. -/
theorem RepoCall.does_error (c : RepoCall) (e : Exn) (T : Tables) : c.Does (.error e) T T := by
  cases c with
  | listFailedEventChunks => exact ⟨rfl, nofun⟩
  | saveEmbeddingRecords rs => exact ⟨.refl T rs, nofun⟩
  | setChunkEmbeddingStatus => exact ⟨fun _ _ => rfl, nofun⟩
  | saveIndexingDeadLetter => exact ⟨fun _ _ => rfl, nofun⟩
  | _ => trivial

theorem RepoCall.does_setStatus (id : String) (status : EmbeddingStatus) (T : Tables) :
    (RepoCall.setChunkEmbeddingStatus id status).Does (.ok ()) T (T.setStatus id status) :=
  ⟨nofun, fun _ => rfl⟩

theorem RepoCall.does_deadLetter {d : IndexingDeadLetter} {T : Tables}
    (h : ¬ (T.indexingDeadLetters.find? d.deadLetterId).isSome) :
    (RepoCall.saveIndexingDeadLetter d).Does (.ok ()) T (T.putDeadLetter d) :=
  ⟨nofun, fun _ => ⟨Table.find?_eq_none_iff.mp (Option.not_isSome_iff_eq_none.mp h), rfl⟩⟩

namespace MockDomainStore

variable {engine : SearchEngine}

theorem insertAllNew_adds {K V : Type} [DecidableEq K] {key : V → K} (message : V → String) :
    ∀ (vs : List V) (t : Table key), (∀ x ∈ t, x ∈ (insertAllNew message t vs).2) ∧
      (∀ x ∈ (insertAllNew message t vs).2, x ∈ t ∨ x ∈ vs) ∧
      ((insertAllNew message t vs).1 = .ok () → ∀ v ∈ vs, v ∈ (insertAllNew message t vs).2)
  | [], t => ⟨fun _ h => h, fun _ h => Or.inl h, fun _ => List.forall_mem_nil _⟩
  | v :: vs, t => by
    rw [insertAllNew]
    by_cases htaken : (t.find? (key v)).isSome
    · rw [insertNew, if_pos htaken]
      refine ⟨fun _ h => h, fun _ h => Or.inl h, fun h => ?_⟩
      cases h
    · have hfresh : ∀ x ∈ t, key x ≠ key v :=
        Table.find?_eq_none_iff.mp (Option.not_isSome_iff_eq_none.mp htaken)
      obtain ⟨hkept, hnew, hall⟩ := insertAllNew_adds message vs (t.put v)
      rw [insertNew, if_neg htaken]
      refine ⟨fun x hx => hkept x (Table.mem_put_of_ne hx (hfresh x hx)), fun x hx => ?_,
        fun hok x hx => ?_⟩
      · rcases hnew x hx with hx | hx
        · rcases Table.mem_put.mp hx with rfl | ⟨hx, -⟩
          · exact Or.inr List.mem_cons_self
          · exact Or.inl hx
        · exact Or.inr (List.mem_cons_of_mem _ hx)
      · rcases List.mem_cons.mp hx with rfl | hx
        · exact hkept x Table.mem_put_self
        · exact hall hok x hx

theorem does (c : RepoCall) (s : MockDomainStore) :
    c.Does (handle engine c s).1 s.toTables (handle engine c s).2.toTables := by
  cases c with
  | listFailedEventChunks community limit =>
    refine ⟨rfl, fun chunks h => ?_⟩
    simp only [handle, reading, listFailedEventChunks, requireCommunity_bind] at h
    split at h
    · cases h
    · split at h <;> cases h
      rfl
  | saveEmbeddingRecords rs =>
    obtain ⟨hkept, hnew, hall⟩ := insertAllNew_adds (fun record : EmbeddingRecord =>
      "duplicate embedding for chunk_id=" ++ record.chunkId ++ " model=" ++ record.modelName) rs
      s.embeddingRecords
    exact ⟨⟨rfl, hkept, hnew⟩, hall⟩
  | setChunkEmbeddingStatus id status =>
    simp only [handle, setChunkEmbeddingStatus]
    split
    · exact RepoCall.does_error _ _ _
    · exact RepoCall.does_setStatus id status _
  | saveIndexingDeadLetter d =>
    simp only [handle, saveIndexingDeadLetter, insertNew]
    split
    · exact RepoCall.does_error _ _ _
    · next h => exact RepoCall.does_deadLetter h
  | _ => trivial

end MockDomainStore

namespace SqlDomainStore

variable {dialect : SqlDialect} {engine : SearchEngine}

theorem saveEmbeddingRecords_adds : ∀ {rs : List EmbeddingRecord} {T T' : Tables},
    saveEmbeddingRecords dialect rs T = .ok T' →
      T.AddsRecords rs T' ∧ ∀ r ∈ rs, r ∈ T'.embeddingRecords
  | [], T, _, h => by
    cases h
    exact ⟨.refl T [], List.forall_mem_nil _⟩
  | r :: rs, T, T', h => by
    rw [saveEmbeddingRecords, insertMany, insert] at h
    split at h
    · cases h
    · next hnew =>
      rw [statement] at h
      split at h
      · have hfresh : ∀ x ∈ T.embeddingRecords, x.chunkModel ≠ r.chunkModel :=
          Table.find?_eq_none_iff.mp (Option.not_isSome_iff_eq_none.mp (not_or.mp hnew).1)
        obtain ⟨⟨helse, hkept, hadded⟩, hall⟩ := saveEmbeddingRecords_adds
          (h : saveEmbeddingRecords dialect rs _ = .ok T')
        refine ⟨⟨helse, fun x hx => hkept x (Table.mem_put_of_ne hx (hfresh x hx)),
          fun x hx => ?_⟩, fun x hx => ?_⟩
        · rcases hadded x hx with hx | hx
          · rcases Table.mem_put.mp hx with rfl | ⟨hx, -⟩
            · exact Or.inr List.mem_cons_self
            · exact Or.inl hx
          · exact Or.inr (List.mem_cons_of_mem _ hx)
        · rcases List.mem_cons.mp hx with rfl | hx
          · exact hkept x Table.mem_put_self
          · exact hall x hx
      · cases h

theorem does (c : RepoCall) (T : Tables) :
    c.Does (handle dialect engine c T).1 T (handle dialect engine c T).2 := by
  cases c with
  | listFailedEventChunks community limit =>
    refine ⟨rfl, fun chunks h => ?_⟩
    simp only [handle, reading, listFailedEventChunks, requireCommunity_bind] at h
    split at h
    · cases h
    · split at h <;> cases h
      rfl
  | saveEmbeddingRecords rs =>
    simp only [handle]
    cases h : saveEmbeddingRecords dialect rs T with
    | error e => exact RepoCall.does_error _ e T
    | ok T' =>
      obtain ⟨hadds, hall⟩ := saveEmbeddingRecords_adds h
      exact ⟨hadds, fun _ => hall⟩
  | setChunkEmbeddingStatus id status =>
    simp only [handle, setChunkEmbeddingStatus]
    split
    · exact RepoCall.does_error _ _ _
    · exact RepoCall.does_setStatus id status _
  | saveIndexingDeadLetter d =>
    simp only [handle, saveIndexingDeadLetter, insert, statement]
    split
    · exact RepoCall.does_error _ _ _
    · next h =>
      split
      · exact RepoCall.does_deadLetter h
      · exact RepoCall.does_error _ _ _
  | _ => trivial

end SqlDomainStore

variable {kind : StoreKind} {engine : SearchEngine} {env : Env}

theorem StoreKind.does (c : RepoCall) (s : (kind.backend engine).State) :
    c.Does ((kind.backend engine).handle c s).1 ((kind.backend engine).tables s)
      ((kind.backend engine).tables ((kind.backend engine).handle c s).2) := by
  cases kind with
  | mock => exact MockDomainStore.does c s
  | sql dialect => exact SqlDomainStore.does c s

/-- What a retry sees of a world of a store. -/
def World.ledger (w : World (kind.backend engine).State) : Ledger := ⟨w.rows, w.failures⟩

/-- What answers the calls of a retry, on any rows. -/
def ledgerContract : Contract Call Reply Ledger where
  pre _ _ := True
  post
    | .repo c, t, r, t' => c.Does r t.rows t'.rows ∧
      t'.failures = t.failures ++ if isRaise r then [c] else []
    | .sys _, t, _, t' => t' = t

theorem ledgerContract_meets (env : Env) :
    ledgerContract.Meets (serve (kind.backend engine) env)
      (fun w : World (kind.backend engine).State => w.ledger) fun _ => True := by
  rintro c w - -
  refine ⟨trivial, ?_⟩
  cases c with
  | sys c =>
    cases c <;> simp [ledgerContract, serve, respond, answer, World.ledger, World.record, World.rows,
      World.failures, Event.failure]
  | repo c =>
    simp only [ledgerContract, serve, respond, serveRepo]
    cases env.storeFails w.tick c with
    | some e => exact ⟨c.does_error e w.rows, List.filterMap_append⟩
    | none =>
      refine ⟨StoreKind.does c w.store, List.filterMap_append.trans (congrArg _ ?_)⟩
      simp only [List.filterMap_cons, List.filterMap_nil, Event.failure, raised]
      cases isRaise ((kind.backend engine).handle c w.store).1 <;> rfl

/-! ## Flips -/

/-- The chunk whose flip a call is. -/
def RepoCall.flips : RepoCall → Option String
  | .setChunkEmbeddingStatus id .ready => some id
  | _ => none

theorem mem_filterMap_flips {cs : List RepoCall} {id : String} :
    id ∈ cs.filterMap RepoCall.flips ↔ RepoCall.setChunkEmbeddingStatus id .ready ∈ cs := by
  rw [List.mem_filterMap]
  constructor
  · rintro ⟨c, hc, he⟩
    unfold RepoCall.flips at he
    split at he
    · cases he
      exact hc
    · cases he
  · exact fun h => ⟨_, h, rfl⟩

/-- The chunks `ids` turned ready. -/
def readied (ids : List String) (t : Table EventChunk.chunkId) : Table EventChunk.chunkId :=
  ids.foldl (fun t id => t.adjust id (EventChunk.withStatus .ready)) t

theorem readied_append (ids ids' : List String) (t : Table EventChunk.chunkId) :
    readied (ids ++ ids') t = readied ids' (readied ids t) :=
  List.foldl_append

theorem mem_readied {x : EventChunk} : ∀ {ids : List String} {t : Table EventChunk.chunkId},
    x ∈ readied ids t ↔ ∃ c ∈ t, x = if c.chunkId ∈ ids then c.withStatus .ready else c
  | [], t => by simp [readied]
  | id :: ids, t => by
    have hflip : ∀ y, y ∈ t.adjust id (EventChunk.withStatus .ready) ↔
        ∃ c ∈ t, y = if c.chunkId = id then c.withStatus .ready else c :=
      fun y => Table.mem_adjust (f := EventChunk.withStatus .ready) fun _ => rfl
    rw [readied, List.foldl_cons, ← readied, mem_readied]
    simp only [hflip]
    constructor
    · rintro ⟨_, ⟨c, hc, rfl⟩, rfl⟩
      refine ⟨c, hc, ?_⟩
      by_cases he : c.chunkId = id
      · rw [if_pos he, if_pos (List.mem_cons.mpr (Or.inl he))]
        split <;> rfl
      · simp [he]
    · rintro ⟨c, hc, rfl⟩
      refine ⟨_, ⟨c, hc, rfl⟩, ?_⟩
      by_cases he : c.chunkId = id
      · rw [if_pos he, if_pos (List.mem_cons.mpr (Or.inl he))]
        split <;> rfl
      · simp [he]

/-- How far the chunks of a batch were flipped : all of them, none because the batch failed
before, or those up to a flip that failed. -/
inductive Stops : List EventChunk → List EventChunk → Bool → List String → Prop
  | all (done : List EventChunk) : Stops done [] true []
  | before (rest : List EventChunk) : Stops [] rest false []
  | inside (done : List EventChunk) (chunk : EventChunk) (rest : List EventChunk) :
    Stops done (chunk :: rest) false [chunk.chunkId]

namespace Stops

variable {done rest : List EventChunk} {ids : List String}

theorem rest_nil (h : Stops done rest true ids) : rest = [] := by
  cases h
  rfl

theorem unflipped {succeeded : Bool} {id : String} (h : Stops done rest succeeded ids)
    (hid : id ∈ ids) :
    succeeded = false ∧ ∃ chunk later, rest = chunk :: later ∧ chunk.chunkId = id := by
  cases h with
  | all | before => exact absurd hid List.not_mem_nil
  | inside done chunk later => exact ⟨rfl, chunk, later, rfl, (List.mem_singleton.mp hid).symm⟩

theorem failed (h : Stops done rest false ids) :
    done = [] ∨ ∃ chunk later, rest = chunk :: later ∧ chunk.chunkId ∈ ids := by
  cases h with
  | before => exact Or.inl rfl
  | inside done chunk later => exact Or.inr ⟨chunk, later, rfl, List.mem_singleton_self _⟩

end Stops

/-! ## How a batch ends -/

/-- How the batch of one source row ended : the chunks that were flipped and the others, what
is reported, the calls that raised, and the dead letter that was stored. -/
structure BatchEnd where
  done : List EventChunk
  rest : List EventChunk
  outcome : RetryGroupOutcome
  failures : List RepoCall
  letters : List IndexingDeadLetter
  chunkIds : outcome.chunkIds = (done ++ rest).map EventChunk.chunkId
  stops : Stops done rest outcome.succeeded (failures.filterMap RepoCall.flips)
  letterIds : letters.map IndexingDeadLetter.deadLetterId = outcome.deadLetterId.toList
  letterChunks : ∀ d ∈ letters, d.chunkIds = outcome.chunkIds

/-- The batches ended one after the other. -/
structure Ended (client : EmbeddingClient) (groups : List (String × List EventChunk))
    (ends : List BatchEnd) (t t' : Ledger) : Prop where
  groups : ends.map (fun e => (e.outcome.sourceMessageId, e.done ++ e.rest)) = groups
  chunks : t'.rows.eventChunks =
    readied (ends.flatMap fun e => e.done.map EventChunk.chunkId) t.rows.eventChunks
  letters : t'.rows.indexingDeadLetters.rows =
    t.rows.indexingDeadLetters.rows ++ ends.flatMap BatchEnd.letters
  failures : t'.failures = t.failures ++ ends.flatMap BatchEnd.failures
  kept : ∀ r ∈ t.rows.embeddingRecords, r ∈ t'.rows.embeddingRecords
  new : ∀ r ∈ t'.rows.embeddingRecords, r ∈ t.rows.embeddingRecords ∨
    ∃ e ∈ ends, r.chunkId ∈ e.outcome.chunkIds
  recorded : ∀ e ∈ ends, e.outcome.succeeded = true → ∀ id ∈ e.outcome.chunkIds,
    ∃ r ∈ t'.rows.embeddingRecords, r.chunkId = id ∧ r.modelName = client.modelName

namespace Ended

variable {client : EmbeddingClient} {groups groups' : List (String × List EventChunk)}
  {ends ends' : List BatchEnd} {t t₁ t' : Ledger}

theorem nil (t : Ledger) : Ended client [] [] t t where
  groups := rfl
  chunks := rfl
  letters := (List.append_nil _).symm
  failures := (List.append_nil _).symm
  kept _ h := h
  new _ h := Or.inl h
  recorded := List.forall_mem_nil _

theorem single {e : BatchEnd} {group : String × List EventChunk}
    (hgroup : (e.outcome.sourceMessageId, e.done ++ e.rest) = group) (chunks : t'.rows.eventChunks =
      readied (e.done.map EventChunk.chunkId) t.rows.eventChunks)
    (letters : t'.rows.indexingDeadLetters.rows = t.rows.indexingDeadLetters.rows ++ e.letters)
    (failures : t'.failures = t.failures ++ e.failures)
    (kept : ∀ r ∈ t.rows.embeddingRecords, r ∈ t'.rows.embeddingRecords)
    (new : ∀ r ∈ t'.rows.embeddingRecords, r ∈ t.rows.embeddingRecords ∨
      r.chunkId ∈ e.outcome.chunkIds)
    (recorded : e.outcome.succeeded = true → ∀ id ∈ e.outcome.chunkIds,
      ∃ r ∈ t'.rows.embeddingRecords, r.chunkId = id ∧ r.modelName = client.modelName) :
    Ended client [group] [e] t t' where
  groups := congrArg (fun g => [g]) hgroup
  chunks := by rw [chunks, List.flatMap_singleton]
  letters := by rw [letters, List.flatMap_singleton]
  failures := by rw [failures, List.flatMap_singleton]
  kept := kept
  new r hr := (new r hr).imp_right fun h => ⟨e, List.mem_singleton_self e, h⟩
  recorded := List.forall_mem_singleton.mpr recorded

theorem append (h : Ended client groups ends t t₁) (h' : Ended client groups' ends' t₁ t') :
    Ended client (groups ++ groups') (ends ++ ends') t t' where
  groups := by rw [List.map_append, h.groups, h'.groups]
  chunks := by rw [h'.chunks, h.chunks, ← readied_append, List.flatMap_append]
  letters := by rw [h'.letters, h.letters, List.append_assoc, List.flatMap_append]
  failures := by rw [h'.failures, h.failures, List.append_assoc, List.flatMap_append]
  kept r hr := h'.kept r (h.kept r hr)
  new r hr := by
    rcases h'.new r hr with hr | ⟨e, he, hid⟩
    · rcases h.new r hr with hr | ⟨e, he, hid⟩
      · exact Or.inl hr
      · exact Or.inr ⟨e, List.mem_append_left _ he, hid⟩
    · exact Or.inr ⟨e, List.mem_append_right _ he, hid⟩
  recorded e he hs id hid := by
    rcases List.mem_append.mp he with he | he
    · obtain ⟨r, hr, hrec⟩ := h.recorded e he hs id hid
      exact ⟨r, h'.kept r hr, hrec⟩
    · exact h'.recorded e he hs id hid

end Ended

/-! ## One batch -/

section Following

open ReconciliationService

variable {α β : Type} {t : Ledger}

theorem wp_ledger_repo {c : RepoCall} {f : RepoReply c → Proc β} {Q : Except Exn β → Ledger → Prop}
    (hraised : ∀ e T, c.Does (.error e) t.rows T → Q (.error e) ⟨T, t.failures ++ [c]⟩)
    (hreturned : ∀ v T, c.Does (.ok v) t.rows T → wp ledgerContract (f v) Q ⟨T, t.failures⟩) :
    wp ledgerContract (Proc.repo c >>= f) Q t := by
  rw [wp_bind]
  refine ⟨trivial, ?_⟩
  rintro r ⟨T, fs⟩ ⟨hdoes, hfs⟩
  cases r with
  | error e =>
    cases hfs
    exact hraised e T hdoes
  | ok v =>
    obtain rfl : fs = t.failures := hfs.trans (List.append_nil _)
    exact hreturned v T hdoes

theorem wp_ledger_ask {c : SystemCall} {f : SystemReply c → Proc β}
    {Q : Except Exn β → Ledger → Prop} (h : ∀ r, wp ledgerContract (f r) Q t) :
    wp ledgerContract (ask (Proc.sys c) >>= f) Q t := by
  rw [wp_bind, wp_ask]
  refine ⟨trivial, ?_⟩
  rintro r _ rfl
  exact h r

theorem wp_ledger_embed {chunks : List EventChunk} {f : List Vec → Proc β}
    {Q : Except Exn β → Ledger → Prop} (hraised : ∀ e, Q (.error e) t)
    (hreturned : ∀ vectors, wp ledgerContract (f vectors) Q t) :
    wp ledgerContract (Proc.embed chunks >>= f) Q t := by
  rw [wp_bind]
  refine ⟨trivial, ?_⟩
  rintro r _ rfl
  cases r with
  | error e => exact hraised e
  | ok vectors => exact hreturned vectors

/-- The records of a batch are of its chunks, in turn. -/
theorem wp_ledger_buildRecords {client : EmbeddingClient} {source community : String}
    {now : DateTime} (t : Ledger) : ∀ (chunks : List EventChunk) (vectors : List Vec),
    wp ledgerContract (buildRecords client source community now chunks vectors) (fun r t' => t' = t ∧
      ∀ rs, r = .ok rs → rs.map EmbeddingRecord.chunkId = chunks.map EventChunk.chunkId ∧
        ∀ x ∈ rs, x.modelName = client.modelName) t
  | [], [] => ⟨rfl, fun rs h => by cases h; exact ⟨rfl, List.forall_mem_nil _⟩⟩
  | [], _ :: _ => ⟨rfl, nofun⟩
  | _ :: _, [] => ⟨rfl, nofun⟩
  | chunk :: chunks, vector :: vectors => by
    refine wp_ledger_ask fun id => ?_
    rw [wp_bind]
    refine wp_imp ?_ (wp_ledger_buildRecords t chunks vectors)
    rintro r _ ⟨rfl, hr⟩
    cases r with
    | error e => exact ⟨rfl, nofun⟩
    | ok rest =>
      obtain ⟨hids, hmodel⟩ := hr rest rfl
      refine ⟨rfl, fun rs h => ?_⟩
      cases h
      exact ⟨congrArg _ hids, List.forall_mem_cons.mpr ⟨rfl, hmodel⟩⟩

/-- Chunks are flipped up to the first flip that fails. -/
theorem wp_ledger_setStatuses : ∀ (chunks : List EventChunk) (t : Ledger),
    wp ledgerContract (setStatuses .ready chunks) (fun r t' => ∃ done rest,
      chunks = done ++ rest ∧ isRaise r = !rest.isEmpty ∧
      t'.rows = { t.rows with
        eventChunks := readied (done.map EventChunk.chunkId) t.rows.eventChunks } ∧
      t'.failures = t.failures ++
        (rest.take 1).map fun c => .setChunkEmbeddingStatus c.chunkId .ready) t
  | [], t => ⟨[], [], rfl, rfl, rfl, (List.append_nil _).symm⟩
  | chunk :: chunks, t => by
    refine wp_ledger_repo (fun e T hdoes => ?_) fun _ T hdoes => ?_
    · exact ⟨[], chunk :: chunks, rfl, rfl, hdoes.1 e rfl, rfl⟩
    · obtain rfl : T = t.rows.setStatus chunk.chunkId .ready := hdoes.2 rfl
      refine wp_imp ?_ (wp_ledger_setStatuses chunks _)
      rintro r t' ⟨done, rest, rfl, hr, hrows, hfs⟩
      exact ⟨chunk :: done, rest, rfl, hr, hrows, hfs⟩

variable {client : EmbeddingClient} {source community : String} {now : DateTime}
  {chunks : List EventChunk}

/-- A batch that failed before its first flip. -/
theorem Ended.of_before {rs : List EmbeddingRecord} {t' : Ledger} {fs : List RepoCall}
    (hrs : ∀ x ∈ rs, x.chunkId ∈ chunks.map EventChunk.chunkId)
    (hadds : t.rows.AddsRecords rs t'.rows) (hfailures : t'.failures = t.failures ++ fs)
    (hfs : fs.filterMap RepoCall.flips = []) :
    ∃ e : BatchEnd,
      e.outcome = ⟨source, chunks.map EventChunk.chunkId, false, none, none⟩ ∧
      Ended client [(source, chunks)] [e] t t' := by
  refine ⟨⟨[], chunks, _, fs, [], rfl, ?_, rfl, List.forall_mem_nil _⟩, rfl, ?_⟩
  · rw [hfs]
    exact .before chunks
  · have helse := hadds.elsewhere
    refine .single rfl ?_ ?_ hfailures hadds.kept
      (fun r hr => (hadds.new r hr).imp_right (hrs r)) nofun
    · rw [helse]
      rfl
    · rw [helse, List.append_nil]

theorem wp_ledger_embedGroup :
    wp ledgerContract (embedGroup client source community now chunks) (fun r t' =>
      ∃ e : BatchEnd,
        e.outcome = ⟨source, chunks.map EventChunk.chunkId, !isRaise r, none, none⟩ ∧
        Ended client [(source, chunks)] [e] t t') t := by
  have hbefore : ∃ e : BatchEnd,
      e.outcome = ⟨source, chunks.map EventChunk.chunkId, false, none, none⟩ ∧
      Ended client [(source, chunks)] [e] t t :=
    Ended.of_before (List.forall_mem_nil _) (.refl t.rows []) (List.append_nil _).symm rfl
  refine wp_ledger_embed (fun _ => hbefore) fun vectors => ?_
  rw [wp_bind]
  refine wp_imp ?_ (wp_ledger_buildRecords _ chunks vectors)
  rintro r _ ⟨rfl, hr⟩
  cases r with
  | error e => exact hbefore
  | ok rs =>
    obtain ⟨hids, hmodel⟩ := hr rs rfl
    have hrs : ∀ x ∈ rs, x.chunkId ∈ chunks.map EventChunk.chunkId :=
      fun x hx => hids ▸ List.mem_map_of_mem hx
    have hrecord : ∀ id ∈ chunks.map EventChunk.chunkId, ∃ x ∈ rs, x.chunkId = id :=
      fun id hid => List.mem_map.mp (hids ▸ hid)
    refine wp_ledger_repo (fun e T hdoes => Ended.of_before hrs hdoes.1 rfl rfl) fun _ T hdoes => ?_
    refine wp_imp ?_ (wp_ledger_setStatuses chunks _)
    rintro r ⟨T', fs⟩ ⟨done, rest, rfl, hraise, hrows, hfs⟩
    obtain ⟨hadds, hall⟩ := hdoes
    have helse := hadds.elsewhere
    cases hrows
    cases hfs
    refine ⟨⟨done, rest, _, (rest.take 1).map fun c => .setChunkEmbeddingStatus c.chunkId .ready,
      [], rfl, ?_, rfl, List.forall_mem_nil _⟩, rfl, ?_⟩
    · rw [hraise]
      cases rest with
      | nil => exact .all done
      | cons c rest => exact .inside done c rest
    · refine .single rfl ?_ ?_ rfl hadds.kept (fun r hr => (hadds.new r hr).imp_right (hrs r))
        fun _ id hid => ?_
      · rw [helse]
      · rw [helse, List.append_nil]
      · obtain ⟨x, hx, he⟩ := hrecord id hid
        exact ⟨x, hall rfl x hx, he, hmodel x hx⟩

/-- A failed batch, with what became of its dead letter. -/
theorem Ended.noted {group : String × List EventChunk} {e : BatchEnd} {t₁ : Ledger}
    (h : Ended client [group] [e] t t₁) (hfailed : e.outcome.succeeded = false)
    (hnone : e.letters = []) (errorClass deadLetterId : Option String) (t' : Ledger)
    {fs : List RepoCall} {letters : List IndexingDeadLetter}
    (hrows : t'.rows.indexingDeadLetters.rows = t₁.rows.indexingDeadLetters.rows ++ letters)
    (hfailures : t'.failures = t₁.failures ++ fs) (hfs : fs.filterMap RepoCall.flips = [])
    (hids : letters.map IndexingDeadLetter.deadLetterId = deadLetterId.toList)
    (hletters : ∀ d ∈ letters, d.chunkIds = e.outcome.chunkIds)
    (hchunks : t'.rows.eventChunks = t₁.rows.eventChunks)
    (hrecords : t'.rows.embeddingRecords = t₁.rows.embeddingRecords) :
    ∃ e' : BatchEnd, e'.outcome =
      ⟨e.outcome.sourceMessageId, e.outcome.chunkIds, false, errorClass, deadLetterId⟩ ∧
      Ended client [group] [e'] t t' := by
  have hstops := e.stops
  rw [hfailed] at hstops
  refine ⟨⟨e.done, e.rest,
    ⟨e.outcome.sourceMessageId, e.outcome.chunkIds, false, errorClass, deadLetterId⟩,
    e.failures ++ fs, letters, e.chunkIds, ?_, hids, hletters⟩, rfl, ?_⟩
  · rw [List.filterMap_append, hfs, List.append_nil]
    exact hstops
  · refine .single (List.singleton_inj.mp h.groups) ?_ ?_ ?_ (fun r hr => ?_) (fun r hr => ?_) nofun
    · rw [hchunks, h.chunks, List.flatMap_singleton]
    · rw [hrows, h.letters, List.flatMap_singleton, hnone, List.append_nil]
    · rw [hfailures, h.failures, List.flatMap_singleton, List.append_assoc]
    · rw [hrecords]
      exact h.kept r hr
    · exact (h.new r (hrecords ▸ hr)).imp_right fun hnew => by simpa using hnew

theorem wp_ledger_retryGroup :
    wp ledgerContract (retryGroup client community now source chunks) (fun r t' =>
      ∃ e : BatchEnd, r = .ok e.outcome ∧ Ended client [(source, chunks)] [e] t t') t := by
  unfold retryGroup
  dsimp only
  rw [wp_bind]
  refine (wp_capture _ _ t).mpr (wp_imp ?_ wp_ledger_embedGroup)
  rintro r t₁ ⟨e, he, hend⟩
  cases r with
  | ok => exact ⟨e, congrArg _ he.symm, hend⟩
  | error exc =>
    have hnone : e.letters = [] := by
      have hids := e.letterIds
      rw [he] at hids
      exact List.map_eq_nil_iff.mp hids
    have hfailed : e.outcome.succeeded = false := congrArg RetryGroupOutcome.succeeded he
    have hids : e.outcome.chunkIds = chunks.map EventChunk.chunkId :=
      congrArg RetryGroupOutcome.chunkIds he
    refine wp_ledger_ask fun deadLetterId => ?_
    rw [wp_bind]
    refine (wp_capture _ _ t₁).mpr ⟨trivial, ?_⟩
    rintro r ⟨T, fs⟩ ⟨hdoes, hfs⟩
    cases r with
    | error =>
      obtain rfl : T = t₁.rows := hdoes.1 _ rfl
      obtain ⟨e', he', hend'⟩ := hend.noted hfailed hnone (some exc.className) none
        ⟨t₁.rows, fs⟩ (List.append_nil _).symm hfs rfl rfl (List.forall_mem_nil _) rfl rfl
      rw [he] at he'
      exact ⟨e', congrArg _ he'.symm, hend'⟩
    | ok =>
      obtain ⟨hfresh, rfl⟩ := hdoes.2 rfl
      obtain ⟨e', he', hend'⟩ := hend.noted hfailed hnone (some exc.className)
        (some deadLetterId) ⟨t₁.rows.putDeadLetter _, fs⟩ (Table.rows_put_of_fresh hfresh)
        (hfs.trans rfl) rfl rfl (List.forall_mem_singleton.mpr hids.symm) rfl rfl
      rw [he] at he'
      exact ⟨e', congrArg _ he'.symm, hend'⟩

theorem wp_ledger_retryGroups : ∀ (groups : List (String × List EventChunk)) (t : Ledger),
    wp ledgerContract (retryGroups client community now groups) (fun r t' =>
      ∃ ends, r = .ok (ends.map BatchEnd.outcome) ∧ Ended client groups ends t t') t
  | [], t => ⟨[], rfl, .nil t⟩
  | (source, group) :: groups, t => by
    unfold retryGroups
    rw [wp_bind]
    refine wp_imp ?_ wp_ledger_retryGroup
    rintro _ t₁ ⟨e, rfl, hend⟩
    change wp _ _ _ _
    rw [wp_bind]
    refine wp_imp ?_ (wp_ledger_retryGroups groups t₁)
    rintro _ t' ⟨ends, rfl, hends⟩
    exact ⟨e :: ends, rfl, hend.append hends⟩

/-- A retry that reports has listed the failed chunks and tried the batch of each source row;
one that raises has no client, or its listing failed. -/
theorem wp_ledger_retryFailedChunks (service : ReconciliationService) (limit : Option Int) :
    wp ledgerContract (service.retryFailedChunks community limit) (fun r t' =>
      match r with
      | .ok report => ∃ client ends, service.embeddingClient = some client ∧
        report = ⟨community, ends.map BatchEnd.outcome⟩ ∧
        Ended client (groupBySource (t.rows.listFailedEventChunks community limit)) ends t t'
      | .error _ => t'.rows = t.rows ∧ (service.embeddingClient = none ∨
        t'.failures = t.failures ++ [.listFailedEventChunks community limit])) t := by
  unfold retryFailedChunks
  cases service.embeddingClient with
  | none => exact ⟨rfl, Or.inl rfl⟩
  | some client =>
    refine wp_ledger_repo (fun e T hdoes => ⟨hdoes.1, Or.inr rfl⟩) fun chunks T hdoes => ?_
    obtain ⟨rfl, hchunks⟩ := hdoes
    refine wp_ledger_ask fun now => ?_
    rw [wp_bind]
    refine wp_imp ?_ (wp_ledger_retryGroups _ _)
    rintro _ t' ⟨ends, rfl, hends⟩
    rw [hchunks chunks rfl] at hends
    exact ⟨client, ends, rfl, rfl, hends⟩

end Following

/-! ## What the report accounts for -/

theorem addToGroup_eq (chunk : EventChunk) : ∀ groups : List (String × List EventChunk),
    addToGroup chunk groups = Grouping.insert EventChunk.sourceMessageId chunk groups
  | [] => rfl
  | (source, group) :: groups => by
    rw [addToGroup, Grouping.insert, addToGroup_eq chunk groups]

theorem groupBySource_eq (chunks : List EventChunk) :
    groupBySource chunks = Grouping.byKey EventChunk.sourceMessageId chunks := by
  simp only [groupBySource, addToGroup_eq]
  exact Grouping.foldl_insert chunks

/-- The chunk is the first one of its source row. -/
def Leads (chunks : List EventChunk) (id : String) : Prop :=
  ∃ c ∈ chunks, c.chunkId = id ∧
    (chunks.find? fun d => d.sourceMessageId = c.sourceMessageId) = some c

/-- The report tells what a retry of the failed chunks `chunks` has made of the rows `T` : they
are listed by source row in the order of their oldest, those of a batch that succeeded are all
ready with records and those of a batch that failed all still failed, and a dead letter that
was stored is named. -/
structure Accounts (client : EmbeddingClient) (chunks : List EventChunk) (T : Tables)
    (report : RetryOutcomeReport) (T' : Tables) : Prop where
  sources : report.groups.map RetryGroupOutcome.sourceMessageId =
    (chunks.map EventChunk.sourceMessageId).eraseDups
  chunkIds : ∀ g ∈ report.groups, g.chunkIds =
    (chunks.filter fun c => c.sourceMessageId = g.sourceMessageId).map EventChunk.chunkId
  partition : (report.groups.flatMap RetryGroupOutcome.chunkIds).Perm
    (chunks.map EventChunk.chunkId)
  succeeded : ∀ g ∈ report.groups, g.succeeded = true → ∀ id ∈ g.chunkIds,
    (∃ c ∈ T'.eventChunks, c.chunkId = id ∧ c.embeddingStatus = .ready) ∧
    ∃ r ∈ T'.embeddingRecords, r.chunkId = id ∧ r.modelName = client.modelName
  failed : ∀ g ∈ report.groups, g.succeeded = false → ∀ id ∈ g.chunkIds,
    ∃ c ∈ T'.eventChunks, c.chunkId = id ∧ c.embeddingStatus = .failed
  deadLetter : ∀ g ∈ report.groups, ∀ id, g.deadLetterId = some id ↔
    ∃ d ∈ T'.indexingDeadLetters, ¬ d ∈ T.indexingDeadLetters ∧ d.deadLetterId = id ∧
      d.chunkIds = g.chunkIds
  attempted : report.attemptedChunks = chunks.length
  counts : report.attemptedChunks = report.succeededChunks + report.failedChunks
  failedChunks : report.failedChunks =
    ((report.groups.filter fun g => !g.succeeded).map fun g => (g.chunkIds.length : Int)).sum

namespace Ended

variable {client : EmbeddingClient} {chunks : List EventChunk} {ends : List BatchEnd}
  {t t' : Ledger} {e e' : BatchEnd} {c c' : EventChunk}

/-- A batch is the chunks of its source row. -/
theorem batch (h : Ended client (groupBySource chunks) ends t t') (he : e ∈ ends) :
    e.outcome.sourceMessageId ∈ chunks.map EventChunk.sourceMessageId ∧
      e.done ++ e.rest = chunks.filter fun c => c.sourceMessageId = e.outcome.sourceMessageId := by
  refine Grouping.mem_byKey.mp ?_
  rw [← groupBySource_eq, ← h.groups]
  exact List.mem_map.mpr ⟨e, he, rfl⟩

theorem sources (h : Ended client (groupBySource chunks) ends t t') :
    ends.map (fun e => e.outcome.sourceMessageId) =
      (chunks.map EventChunk.sourceMessageId).eraseDups := by
  have hfst := congrArg (List.map Prod.fst) h.groups
  rw [groupBySource_eq, Grouping.byKey, List.map_map, List.map_map] at hfst
  simpa [Function.comp_def] using hfst

theorem mem_batch (h : Ended client (groupBySource chunks) ends t t') (he : e ∈ ends) :
    c ∈ e.done ++ e.rest ↔ c ∈ chunks ∧ c.sourceMessageId = e.outcome.sourceMessageId := by
  rw [(h.batch he).2, List.mem_filter, decide_eq_true_iff]

variable (hids : (chunks.map EventChunk.chunkId).Nodup)
include hids

/-- A chunk is in one batch. -/
theorem eq_of_shared (h : Ended client (groupBySource chunks) ends t t') (he : e ∈ ends)
    (he' : e' ∈ ends) (hc : c ∈ e.done ++ e.rest) (hc' : c' ∈ e'.done ++ e'.rest)
    (hid : c.chunkId = c'.chunkId) : e = e' ∧ c = c' := by
  obtain ⟨hc, hs⟩ := (h.mem_batch he).mp hc
  obtain ⟨hc', hs'⟩ := (h.mem_batch he').mp hc'
  obtain rfl := List.inj_on_of_nodup_map hids hc hc' hid
  have hsources : (ends.map fun e => e.outcome.sourceMessageId).Nodup := by
    rw [h.sources]
    exact Grouping.nodup_eraseDups _
  exact ⟨List.inj_on_of_nodup_map hsources he he' (hs.symm.trans hs'), rfl⟩

/-- A chunk was flipped in its own batch. -/
theorem mem_flipped (h : Ended client (groupBySource chunks) ends t t') (he : e ∈ ends)
    (hc : c ∈ e.done ++ e.rest) :
    c.chunkId ∈ ends.flatMap (fun e => e.done.map EventChunk.chunkId) ↔ c ∈ e.done := by
  rw [List.mem_flatMap]
  constructor
  · rintro ⟨e', he', hid⟩
    obtain ⟨c', hc', hid⟩ := List.mem_map.mp hid
    obtain ⟨rfl, rfl⟩ := h.eq_of_shared hids he' he (List.mem_append_left _ hc') hc hid
    exact hc'
  · exact fun hdone => ⟨e, he, List.mem_map_of_mem hdone⟩

/-- What became of a listed chunk. -/
theorem status (h : Ended client (groupBySource chunks) ends t t')
    (hfailed : ∀ c ∈ chunks, c ∈ t.rows.eventChunks ∧ c.embeddingStatus = .failed) (he : e ∈ ends)
    (hc : c ∈ e.done ++ e.rest) : ∃ x ∈ t'.rows.eventChunks, x.chunkId = c.chunkId ∧
      x.embeddingStatus = if c ∈ e.done then .ready else .failed := by
  obtain ⟨hmem, hstatus⟩ := hfailed c ((h.mem_batch he).mp hc).1
  rw [h.chunks]
  refine ⟨_, mem_readied.mpr ⟨c, hmem, rfl⟩, ?_⟩
  simp only [h.mem_flipped hids he hc]
  split
  · exact ⟨rfl, rfl⟩
  · exact ⟨rfl, hstatus⟩

omit hids in
theorem partition (h : Ended client (groupBySource chunks) ends t t') :
    ((ends.map BatchEnd.outcome).flatMap RetryGroupOutcome.chunkIds).Perm
      (chunks.map EventChunk.chunkId) := by
  have hgroups : (ends.map BatchEnd.outcome).flatMap RetryGroupOutcome.chunkIds =
      ((groupBySource chunks).flatMap Prod.snd).map EventChunk.chunkId := by
    rw [← h.groups, List.flatMap_map, List.flatMap_map, List.map_flatMap]
    exact congrArg (fun f => ends.flatMap f) (funext BatchEnd.chunkIds)
  rw [hgroups, groupBySource_eq]
  exact (Grouping.flatMap_byKey chunks).map _

/-- A batch that was reported as failed has left its chunks failed, unless one was flipped. -/
theorem failed_iff (h : Ended client (groupBySource chunks) ends t t')
    (hfailed : ∀ c ∈ chunks, c ∈ t.rows.eventChunks ∧ c.embeddingStatus = .failed) (he : e ∈ ends) :
    (∀ id ∈ e.outcome.chunkIds, ∃ x ∈ t'.rows.eventChunks, x.chunkId = id ∧
      x.embeddingStatus = .failed) ↔ e.done = [] := by
  simp only [e.chunkIds, List.forall_mem_map]
  constructor
  · intro hall
    refine List.eq_nil_iff_forall_not_mem.mpr fun c hc => ?_
    obtain ⟨x, hx, hid, hstatus⟩ := hall c (List.mem_append_left _ hc)
    obtain ⟨y, hy, hid', hready⟩ := h.status hids hfailed he (List.mem_append_left _ hc)
    obtain rfl : x = y := Table.eq_of_key hx hy (hid.trans hid'.symm)
    rw [hstatus, if_pos hc] at hready
    cases hready
  · intro hdone c hc
    obtain ⟨x, hx, hid, hstatus⟩ := h.status hids hfailed he hc
    rw [hdone, if_neg List.not_mem_nil] at hstatus
    exact ⟨x, hx, hid, hstatus⟩

/-- The dead letters that were stored are those that the outcomes name. -/
theorem deadLetter_iff (h : Ended client (groupBySource chunks) ends t t') (he : e ∈ ends)
    (id : String) : e.outcome.deadLetterId = some id ↔
      ∃ d ∈ t'.rows.indexingDeadLetters, ¬ d ∈ t.rows.indexingDeadLetters ∧ d.deadLetterId = id ∧
        d.chunkIds = e.outcome.chunkIds := by
  have hrows : t'.rows.indexingDeadLetters.rows.Nodup := Table.rows_nodup _
  rw [h.letters] at hrows
  have hmem : ∀ d, d ∈ t'.rows.indexingDeadLetters ↔ d ∈ t.rows.indexingDeadLetters ∨
      ∃ e' ∈ ends, d ∈ e'.letters := by
    intro d
    rw [← Table.mem_rows, h.letters, List.mem_append, List.mem_flatMap, Table.mem_rows]
  constructor
  · intro hid
    have hletter : id ∈ e.letters.map IndexingDeadLetter.deadLetterId := by
      rw [e.letterIds, hid]
      exact List.mem_singleton_self id
    obtain ⟨d, hd, rfl⟩ := List.mem_map.mp hletter
    refine ⟨d, (hmem d).mpr (Or.inr ⟨e, he, hd⟩), fun hold => ?_, rfl, e.letterChunks d hd⟩
    exact (List.nodup_append.mp hrows).2.2 d hold d (List.mem_flatMap.mpr ⟨e, he, hd⟩) rfl
  · rintro ⟨d, hd, hnew, rfl, hchunks⟩
    obtain ⟨e', he', hd⟩ := ((hmem d).mp hd).resolve_left hnew
    have hsame : e'.outcome.chunkIds = e.outcome.chunkIds := (e'.letterChunks d hd).symm.trans hchunks
    -- a batch has a chunk, and the letter lists it
    obtain ⟨c, hc, hs⟩ := List.mem_map.mp (h.batch he).1
    have hce : c ∈ e.done ++ e.rest := (h.mem_batch he).mpr ⟨hc, hs⟩
    have hce' : c.chunkId ∈ e'.outcome.chunkIds := by
      rw [hsame, e.chunkIds]
      exact List.mem_map_of_mem hce
    rw [e'.chunkIds] at hce'
    obtain ⟨c', hc', hid⟩ := List.mem_map.mp hce'
    obtain ⟨rfl, -⟩ := h.eq_of_shared hids he' he hc' hce hid
    have hletter : d.deadLetterId ∈ e'.outcome.deadLetterId.toList := by
      rw [← e'.letterIds]
      exact List.mem_map_of_mem hd
    exact Option.mem_toList.mp hletter

end Ended

/-! ## Counts -/

theorem sum_chunkIds : ∀ gs : List RetryGroupOutcome,
    (gs.map fun g => (g.chunkIds.length : Int)).sum =
      ((gs.flatMap RetryGroupOutcome.chunkIds).length : Int)
  | [] => rfl
  | g :: gs => by
    rw [List.map_cons, List.sum_cons, sum_chunkIds gs, List.flatMap_cons, List.length_append]
    omega

theorem sum_succeeded_add : ∀ gs : List RetryGroupOutcome,
    ((gs.filter RetryGroupOutcome.succeeded).map fun g => (g.chunkIds.length : Int)).sum +
      ((gs.filter fun g => !g.succeeded).map fun g => (g.chunkIds.length : Int)).sum =
      (gs.map fun g => (g.chunkIds.length : Int)).sum
  | [] => rfl
  | g :: gs => by
    have ih := sum_succeeded_add gs
    cases hs : g.succeeded <;> simp [hs] <;> omega

/-! ## The report -/

section Reporting

variable {client : EmbeddingClient} {chunks : List EventChunk} {ends : List BatchEnd}
  {t t' : Ledger} (hids : (chunks.map EventChunk.chunkId).Nodup)
  (h : Ended client (groupBySource chunks) ends t t')
include hids h

/-- The report accounts for the batches that kept together. -/
theorem accounts_iff_done (hfailed : ∀ c ∈ chunks, c ∈ t.rows.eventChunks ∧
    c.embeddingStatus = .failed) (community : String) :
    Accounts client chunks t.rows ⟨community, ends.map BatchEnd.outcome⟩ t'.rows ↔
      ∀ e ∈ ends, e.outcome.succeeded = false → e.done = [] := by
  have hattempted : RetryOutcomeReport.attemptedChunks ⟨community, ends.map BatchEnd.outcome⟩ =
      chunks.length := by
    rw [RetryOutcomeReport.attemptedChunks, sum_chunkIds, h.partition.length_eq, List.length_map]
  have hsum := sum_succeeded_add (ends.map BatchEnd.outcome)
  constructor
  · intro hacc e he hs
    exact (h.failed_iff hids hfailed he).mp (hacc.failed _ (List.mem_map_of_mem he) hs)
  · intro hdone
    refine ⟨?_, ?_, h.partition, ?_, ?_, ?_, hattempted, ?_, ?_⟩
    · rw [List.map_map]
      exact h.sources
    · refine List.forall_mem_map.mpr fun e he => ?_
      rw [e.chunkIds, (h.batch he).2]
    · refine List.forall_mem_map.mpr fun e he hs id hid => ⟨?_, h.recorded e he hs id hid⟩
      rw [e.chunkIds] at hid
      obtain ⟨c, hc, rfl⟩ := List.mem_map.mp hid
      obtain ⟨x, hx, hxid, hstatus⟩ := h.status hids hfailed he hc
      have hstops := e.stops
      rw [hs] at hstops
      rw [hstops.rest_nil, List.append_nil] at hc
      rw [if_pos hc] at hstatus
      exact ⟨x, hx, hxid, hstatus⟩
    · exact List.forall_mem_map.mpr fun e he hs => (h.failed_iff hids hfailed he).mpr (hdone e he hs)
    · exact List.forall_mem_map.mpr fun e he id => h.deadLetter_iff hids he id
    · rw [RetryOutcomeReport.failedChunks]
      omega
    · simp only [RetryOutcomeReport.failedChunks, RetryOutcomeReport.attemptedChunks,
        RetryOutcomeReport.succeededChunks]
      omega

/-- The batches kept together when only first chunks failed to flip. -/
theorem done_iff_leads : (∀ e ∈ ends, e.outcome.succeeded = false → e.done = []) ↔
    ∀ id, RepoCall.setChunkEmbeddingStatus id .ready ∈ t'.failures.drop t.failures.length →
      Leads chunks id := by
  have hunflipped : ∀ id, RepoCall.setChunkEmbeddingStatus id .ready ∈
      t'.failures.drop t.failures.length ↔ ∃ e ∈ ends, id ∈ e.failures.filterMap RepoCall.flips := by
    intro id
    rw [h.failures, List.drop_left]
    simp only [List.mem_flatMap, mem_filterMap_flips]
  have hfirst : ∀ e ∈ ends, (e.done ++ e.rest).head? =
      chunks.find? fun c => c.sourceMessageId = e.outcome.sourceMessageId := by
    intro e he
    rw [(h.batch he).2, List.head?_filter]
  constructor
  · intro hdone id hid
    obtain ⟨e, he, hid⟩ := (hunflipped id).mp hid
    obtain ⟨hs, c, later, hrest, hcid⟩ := e.stops.unflipped hid
    have hbatch : e.done ++ e.rest = c :: later := by rw [hdone e he hs, hrest, List.nil_append]
    obtain ⟨hc, hsource⟩ := (h.mem_batch he).mp (hbatch ▸ List.mem_cons_self)
    refine ⟨c, hc, hcid, ?_⟩
    rw [hsource, ← hfirst e he, hbatch, List.head?_cons]
  · intro hleads e he hs
    have hstops := e.stops
    rw [hs] at hstops
    rcases hstops.failed with hdone | ⟨c, later, hrest, hid⟩
    · exact hdone
    · obtain ⟨c', hc', hid', hlead⟩ := hleads _ ((hunflipped _).mpr ⟨e, he, hid⟩)
      have hmem : c ∈ e.done ++ e.rest := by
        rw [hrest]
        exact List.mem_append_right _ List.mem_cons_self
      obtain ⟨hc, hsource⟩ := (h.mem_batch he).mp hmem
      obtain rfl := List.inj_on_of_nodup_map hids hc' hc hid'
      rw [hsource, ← hfirst e he] at hlead
      -- a chunk flipped before the first one of the batch would be that one
      cases hdone : e.done with
      | nil => rfl
      | cons d ds =>
        have hnodup : (e.done ++ e.rest).Nodup := by
          rw [(h.batch he).2]
          exact hids.of_map.filter _
        rw [hdone, List.cons_append, List.head?_cons, Option.some.injEq] at hlead
        rw [hdone, hrest, hlead] at hnodup
        exact absurd rfl ((List.nodup_append.mp hnodup).2.2 _ List.mem_cons_self _ List.mem_cons_self)

end Reporting

/-- Nothing changed that is of other chunks than `ids`. -/
structure LeavesOthers (ids : List String) (T T' : Tables) : Prop where
  chunk : ∀ c, c.chunkId ∉ ids → (c ∈ T'.eventChunks ↔ c ∈ T.eventChunks)
  record : ∀ r, r.chunkId ∉ ids → (r ∈ T'.embeddingRecords ↔ r ∈ T.embeddingRecords)
  deadLetter : ∀ d, d.chunkIds ≠ ids → (d ∈ T'.indexingDeadLetters ↔ d ∈ T.indexingDeadLetters)

theorem Ended.leavesOthers {client : EmbeddingClient} {source : String} {chunks : List EventChunk}
    {e : BatchEnd} {t t' : Ledger} (h : Ended client [(source, chunks)] [e] t t') :
    LeavesOthers (chunks.map EventChunk.chunkId) t.rows t'.rows := by
  have hbatch : e.done ++ e.rest = chunks := (Prod.mk.inj (List.singleton_inj.mp h.groups)).2
  have hids : e.outcome.chunkIds = chunks.map EventChunk.chunkId := by rw [e.chunkIds, hbatch]
  refine ⟨fun c hc => ?_, fun r hr => ⟨fun hmem => ?_, h.kept r⟩, fun d hd => ?_⟩
  · have hdone : ∀ x : EventChunk, x.chunkId = c.chunkId →
        ¬ x.chunkId ∈ e.done.map EventChunk.chunkId := fun x hx hmem =>
      hc (hbatch ▸ hx ▸ List.map_append ▸ List.mem_append_left _ hmem)
    rw [h.chunks, List.flatMap_singleton, mem_readied]
    constructor
    · rintro ⟨x, hx, rfl⟩
      rw [if_neg (hdone x (by split <;> rfl))]
      exact hx
    · exact fun hx => ⟨c, hx, (if_neg (hdone c rfl)).symm⟩
  · obtain hold | ⟨e', he', hid⟩ := h.new r hmem
    · exact hold
    · rw [List.mem_singleton.mp he', hids] at hid
      exact absurd hid hr
  · rw [← Table.mem_rows, h.letters, List.flatMap_singleton, List.mem_append, Table.mem_rows]
    exact or_iff_left fun hmem => hd ((e.letterChunks d hmem).trans hids)

theorem ledger_exec {α : Type} (env : Env) (p : Proc α) (w : World (kind.backend engine).State)
    {Q : Except Exn α → Ledger → Prop} (h : wp ledgerContract p Q w.ledger) :
    Q (p.exec (kind.backend engine) env w).1 (p.exec (kind.backend engine) env w).2.ledger :=
  (Prog.run_of_wp (ledgerContract_meets env) p.run trivial h).2

/-- Whatever rows the store holds and whichever calls fail, a batch changes nothing of another
one, and the report of a retry accounts for the failed chunks exactly when no flip failed but
those of the first chunk of a batch. -/
theorem retry_accounts_iff (kind : StoreKind) (engine : SearchEngine) (env : Env)
    (w : World (kind.backend engine).State) (service : ReconciliationService) (community : String)
    (limit : Option Int) :
    (∀ client source now chunks, LeavesOthers (chunks.map EventChunk.chunkId) w.rows
      ((ReconciliationService.retryGroup client community now source chunks).exec
        (kind.backend engine) env w).2.rows) ∧
    match (service.retryFailedChunks community limit).exec (kind.backend engine) env w with
    | (.ok report, w') => report.communityId = community ∧
      ∃ client, service.embeddingClient = some client ∧
        (Accounts client (w.rows.listFailedEventChunks community limit) w.rows report w'.rows ↔
          ∀ id, .setChunkEmbeddingStatus id .ready ∈ w'.failures.drop w.failures.length →
            Leads (w.rows.listFailedEventChunks community limit) id)
    | (.error _, w') => w'.rows = w.rows ∧ (service.embeddingClient = none ∨
      w'.failures = w.failures ++ [.listFailedEventChunks community limit]) := by
  refine ⟨fun client source now chunks => ?_, ?_⟩
  · obtain ⟨e, -, hend⟩ := ledger_exec env
      (ReconciliationService.retryGroup client community now source chunks) w wp_ledger_retryGroup
    exact hend.leavesOthers
  · have hrun := ledger_exec env (service.retryFailedChunks community limit) w
      (wp_ledger_retryFailedChunks service limit)
    rcases hexec : (service.retryFailedChunks community limit).exec (kind.backend engine) env w
      with ⟨r, w'⟩
    rw [hexec] at hrun
    cases r with
    | error e => exact hrun
    | ok report =>
      obtain ⟨client, ends, hclient, rfl, hends⟩ := hrun
      have hids := w.rows.nodup_listFailedEventChunks community limit
      refine ⟨rfl, client, hclient,
        (accounts_iff_done hids hends (fun c hc => ?_) community).trans (done_iff_leads hids hends)⟩
      obtain ⟨hmem, -, hstatus⟩ := Tables.mem_failedChunks.mp
        ((w.rows.listFailedEventChunks_sublist community limit).subset hc)
      exact ⟨hmem, hstatus⟩

/-- A failed chunk. -/
def failedChunk (id : String) (eventIndex : Nat) : EventChunk :=
  { chunkId := id, noteId := "note", sourceMessageId := "source", communityId := "community"
    authorUserId := "user", noteDate := .mayNinth, eventIndex, chunkText := "walk"
    createdAt := Env.steady.now eventIndex, embeddingStatus := .failed }

/-- The batch of two chunks is reported as failed when the flip of the second one fails, and has
left the first one ready. -/
theorem retry_splits_batch :
    let env : Env := { Env.steady with
      storeFails := fun _ c =>
        if c = .setChunkEmbeddingStatus "second" .ready then some (.other "OperationalError")
        else none }
    let client : EmbeddingClient := ⟨"model", 1⟩
    let store : MockDomainStore :=
      { eventChunks := Table.empty.putAll [failedChunk "first" 0, failedChunk "second" 1] }
    let w : World (StoreKind.mock.backend .plain).State := { store := store }
    let r := ((ReconciliationService.mk (some client)).retryFailedChunks "community" none).exec
      (StoreKind.mock.backend .plain) env w
    ∃ report, r.1 = .ok report ∧
      ¬ Accounts client (w.rows.listFailedEventChunks "community" none) w.rows report r.2.rows := by
  intro env client store w r
  have hreport : r.1.toOption = some ⟨"community",
      [⟨"source", ["first", "second"], false, some "OperationalError", some "xx"⟩]⟩ := by
    decide +kernel
  have hready : ∀ c ∈ r.2.rows.eventChunks.rows, c.chunkId = "first" →
      c.embeddingStatus = .ready := by decide +kernel
  refine ⟨_, ok_of_toOption hreport, fun hacc => ?_⟩
  obtain ⟨c, hc, hid, hfailed⟩ := hacc.failed _ (List.mem_singleton_self _) rfl "first"
    List.mem_cons_self
  rw [hready c hc hid] at hfailed
  cases hfailed

end DiaryMemory
