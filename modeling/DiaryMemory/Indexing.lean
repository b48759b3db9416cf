import DiaryMemory.Scope

/-!
# Embeddings of the chunks

Records are stored before their chunk turns ready, and dropped with it. So in every run,
wherever it is interrupted, a ready chunk has a record under the model of the client, and a
record holds a vector of the text of its chunk (`Tables.Embedded`, `embedded_run`).

Not every failure of the embedding step of an ingest ends in a chunk that is ready or
failed : only the call to the provider is guarded (`indexed_iff`).
-/

namespace DiaryMemory

namespace Tables

/-- A record holds a vector of the text of its chunk, and a ready chunk has a record under
the model. -/
structure Embedded (env : Env) (model : String) (T : Tables) : Prop where
  vector : ∀ r ∈ T.embeddingRecords, ∃ c ∈ T.eventChunks, RecordOf c r ∧
    env.Vectorizes c.chunkText r.embedding
  ready : ∀ c ∈ T.eventChunks, c.embeddingStatus = .ready →
    ∃ r ∈ T.embeddingRecords, r.chunkModel = (c.chunkId, model)

namespace Embedded

variable {env : Env} {model : String} {T T' : Tables}

theorem empty : Embedded env model {} where
  vector _ h := absurd h Table.not_mem_empty
  ready _ h := absurd h Table.not_mem_empty

/-- The record of a ready chunk holds a vector of its text. -/
theorem record (h : T.Embedded env model) {c : EventChunk} (hc : c ∈ T.eventChunks)
    (hready : c.embeddingStatus = .ready) : ∃ r ∈ T.embeddingRecords, r.modelName = model ∧
      RecordOf c r ∧ env.Vectorizes c.chunkText r.embedding := by
  obtain ⟨r, hr, hkey⟩ := h.ready c hc hready
  obtain ⟨hid, hmodel⟩ := Prod.mk.inj hkey
  obtain ⟨d, hd, ho, hvector⟩ := h.vector r hr
  have hdc : d = c := Table.eq_of_key hd hc (ho.chunk.trans hid)
  exact ⟨r, hr, hmodel, hdc ▸ ho, hdc ▸ hvector⟩

/-- The same records, of chunks that are there but for their marks. -/
theorem of_same (h : T.Embedded env model) (hrecords : T'.embeddingRecords = T.embeddingRecords)
    (hto : ∀ c ∈ T.eventChunks, ∃ c' ∈ T'.eventChunks, c.Same c')
    (hready : ∀ c' ∈ T'.eventChunks, c'.embeddingStatus = .ready →
      ∃ r ∈ T.embeddingRecords, r.chunkModel = (c'.chunkId, model)) : T'.Embedded env model where
  vector r hr := by
    obtain ⟨c, hc, ho, hvector⟩ := h.vector r (hrecords ▸ hr)
    obtain ⟨c', hc', he⟩ := hto c hc
    have htext : c'.chunkText = c.chunkText := (congrArg EventChunk.chunkText he :)
    exact ⟨c', hc', ho.of_same he, htext ▸ hvector⟩
  ready c hc hr := hrecords ▸ hready c hc hr

theorem markChunk (h : T.Embedded env model) (state : LifecycleState) (id : String) :
    (T.markChunk state id).Embedded env model := by
  refine h.of_same rfl (sameRows_markChunk T state id).chunk_to fun c' hc' hready => ?_
  obtain ⟨c, hc, rfl⟩ := mem_markChunk.mp hc'
  by_cases he : c.chunkId = id
  · rw [if_pos he] at hready ⊢
    exact h.ready c hc hready
  · rw [if_neg he] at hready ⊢
    exact h.ready c hc hready

/-- A chunk turns ready once it has a record. -/
theorem setStatus (h : T.Embedded env model) {id : String} {status : EmbeddingStatus}
    (hrecord : status = .ready → ∃ r ∈ T.embeddingRecords, r.chunkModel = (id, model)) :
    (T.setStatus id status).Embedded env model := by
  refine h.of_same rfl (sameRows_setStatus T id status).chunk_to fun c' hc' hready => ?_
  obtain ⟨c, hc, rfl⟩ := mem_setStatus.mp hc'
  by_cases he : c.chunkId = id
  · rw [if_pos he] at hready ⊢
    rw [EventChunk.withStatus_chunkId, he]
    exact hrecord hready
  · rw [if_neg he] at hready ⊢
    exact h.ready c hc hready

/-- A new chunk is pending. -/
theorem putChunks (h : T.Embedded env model) {cs : List EventChunk}
    (hg : (RepoCall.saveEventChunks cs).Guard T) : (T.putChunks cs).Embedded env model := by
  obtain rfl | ⟨c, rfl, -, -, hpending, -⟩ := hg.saved
  · exact h
  · refine h.of_same rfl (fun x hx => ⟨x, hg.keeps_chunk hx, .refl x⟩) fun x hx hready => ?_
    rcases Table.mem_put.mp hx with rfl | ⟨hx, -⟩
    · rw [hpending] at hready
      cases hready
    · exact h.ready x hx hready

theorem putRecords (h : T.Embedded env model) {rs : List EmbeddingRecord}
    (hnew : ∀ r ∈ rs, ∃ c ∈ T.eventChunks, RecordOf c r ∧
      env.Vectorizes c.chunkText r.embedding) : (T.putRecords rs).Embedded env model where
  vector := Table.forall_putAll h.vector hnew
  ready c hc hready := Table.exists_putAll (h.ready c hc hready)

/-- The chunks of a source row go with their records. -/
theorem removeSource (h : T.Embedded env model) (id : String) :
    (T.removeSource id).Embedded env model where
  vector r hr := by
    obtain ⟨hr, hne⟩ := Table.mem_discard.mp hr
    obtain ⟨c, hc, ho, hvector⟩ := h.vector r hr
    have hkept : c.sourceMessageId ≠ id := ho.source ▸ of_decide_eq_false hne
    exact ⟨c, Table.mem_discard.mpr ⟨hc, decide_eq_false hkept⟩, ho, hvector⟩
  ready c hc hready := by
    obtain ⟨hc, hne⟩ := Table.mem_discard.mp hc
    obtain ⟨r, hr, hmodel, ho, -⟩ := h.record hc hready
    have hkept : r.sourceMessageId ≠ id := ho.source ▸ of_decide_eq_false hne
    exact ⟨r, Table.mem_discard.mpr ⟨hr, decide_eq_false hkept⟩,
      Prod.ext ho.chunk.symm hmodel⟩

/-- What a call of a request keeps. -/
theorem effect (h : T.Embedded env model) {c : RepoCall} {client : Option EmbeddingClient}
    {community : String} (hclient : ∀ cl ∈ client, cl.modelName = model) (hg : c.Guard T)
    (hscoped : c.Scoped env client community T) : (c.effect T).Embedded env model := by
  cases c with
  | getOrCreateSourceMessage s =>
    rw [RepoCall.effect]
    split
    · exact h
    · exact h.of_same rfl (fun c hc => ⟨c, hc, .refl c⟩) h.ready
  | saveEventChunks cs => exact h.putChunks hg
  | saveEmbeddingRecords rs => exact h.putRecords fun r hr => (hscoped r hr).2.2
  | setChunkEmbeddingStatus id status =>
    refine h.setStatus fun hready => ?_
    obtain ⟨cl, hcl, r, hr, hid, hmodel⟩ := hscoped.2 hready
    exact ⟨r, hr, Prod.ext hid (hmodel.trans (hclient cl hcl))⟩
  | markChunk state id => exact h.markChunk state id
  | hardDeleteSourceMessage id => exact h.removeSource id
  | _ => exact h.of_same rfl (fun c hc => ⟨c, hc, .refl c⟩) h.ready

end Embedded

end Tables

/-- In every run with one client, whatever fails, a ready chunk has a record under its model
with a vector of the text of the chunk, and every record is of a chunk that is there. The vector is
the one the client answered : exactly so in memory, while the SQL stores hold its components as
floats of 32 bits, which the rows of `SqlDomainStore` do not round. -/
theorem embedded_run (kind : StoreKind) (engine : SearchEngine) (env : Env) {model : String}
    {ops : List Operation} (hclient : ∀ o ∈ ops, ∀ cl ∈ o.client, cl.modelName = model) :
    let T := (runAll (kind.backend engine) env (World.initial kind engine) ops).rows
    (∀ c ∈ T.eventChunks, c.embeddingStatus = .ready → ∃ r ∈ T.embeddingRecords,
      r.modelName = model ∧ RecordOf c r ∧ env.Vectorizes c.chunkText r.embedding) ∧
    ∀ r ∈ T.embeddingRecords, ∃ c ∈ T.eventChunks, RecordOf c r := by
  intro T
  have h : T.Embedded env model := runAll_scoped .empty fun o ho c T' _ hg _ hscoped hT' =>
    hT'.effect (hclient o ho) hg hscoped
  refine ⟨fun c hc hready => h.record hc hready, fun r hr => ?_⟩
  obtain ⟨c, hc, ho, -⟩ := h.vector r hr
  exact ⟨c, hc, ho⟩

theorem embedded_run_edited :
    let ops : List Operation := [
      .ingest ⟨some ⟨"model", 1⟩⟩ (.plain .note "2026-05-09\nwalk" 0),
      .ingest ⟨some ⟨"model", 1⟩⟩ (.plain .note "2026-05-09\nrun" 1),
      .retry ⟨some ⟨"model", 1⟩⟩ "community" none]
    let T := (runAll (StoreKind.mock.backend .plain) .steady (World.initial .mock .plain) ops).rows
    (∀ c ∈ T.eventChunks, c.embeddingStatus = .ready → ∃ r ∈ T.embeddingRecords,
      r.modelName = "model" ∧ RecordOf c r ∧ Env.steady.Vectorizes c.chunkText r.embedding) ∧
    ∀ r ∈ T.embeddingRecords, ∃ c ∈ T.eventChunks, RecordOf c r :=
  embedded_run .mock .plain .steady (by simp [Operation.client])

/-! ## The embedding step of an ingest -/

/-- A write of the embedding step that decides the status of the chunk. -/
def RepoCall.IsIndexWrite : RepoCall → Prop
  | .saveEmbeddingRecords _ | .setChunkEmbeddingStatus .. => True
  | _ => False

/-- The provider raised, or answered with one vector. -/
def OneVector (answer : Except Exn (List Vec)) : Prop :=
  ∀ vectors, answer = .ok vectors → vectors.length = 1

/-- The chunk is ready and has its record, or it is failed and listed as such. -/
def Tables.Indexed (T : Tables) (client : EmbeddingClient) (chunk : EventChunk) : Prop :=
  ∃ c ∈ T.eventChunks, c.chunkId = chunk.chunkId ∧
    (c.embeddingStatus = .ready ∧ T.HasRecord (some client) c.chunkId ∨
      c.embeddingStatus = .failed ∧ c ∈ T.listFailedEventChunks c.communityId none)

section Step

variable {kind : StoreKind} {engine : SearchEngine} {env : Env}
  {w w' : World (kind.backend engine).State} {client : EmbeddingClient} {chunk : EventChunk}
  {answer : Except Exn (List Vec)} {r : Except Exn Unit}

theorem Tables.not_indexed {T : Tables} (hc : chunk ∈ T.eventChunks)
    (hpending : chunk.embeddingStatus = .pending) : ¬ T.Indexed client chunk := by
  rintro ⟨c, hcm, hid, hstatus⟩
  rw [Table.eq_of_key hcm hc hid, hpending] at hstatus
  rcases hstatus with ⟨h, -⟩ | ⟨h, -⟩ <;> cases h

theorem EmbedOutcome.asked (h : EmbedOutcome env client chunk answer w r w') :
    w'.asked = w.asked := by
  cases h with
  | mismatch hanswer hlength hl => exact hl.asked
  | stored hanswer hr hm hc => exact hc.asked
  | unmarked hanswer hc => exact hc.asked
  | failed hanswer hd hp hdead =>
    rcases hdead with hdead | ⟨e, hdead⟩ <;> exact hdead.asked.trans hp.asked

theorem EmbedOutcome.log (h : EmbedOutcome env client chunk answer w r w') : w.log <+: w'.log := by
  cases h with
  | mismatch hanswer hlength hl => exact hl.log
  | stored hanswer hr hm hc => exact hc.log
  | unmarked hanswer hc => exact hc.log
  | failed hanswer hd hp hdead =>
    rcases hdead with hdead | ⟨e, hdead⟩ <;> exact hp.log.trans hdead.log

/-- A call of two writes that raised is one of them, and leaves the chunks. -/
theorem Completes.index_stopped {α : Type} {V : α → Prop} {e : Exn} {record : EmbeddingRecord}
    {id : String} {status : EmbeddingStatus}
    (h : Completes env [.saveEmbeddingRecords [record], .setChunkEmbeddingStatus id status] w V
      (.error e) w') : w'.rows.eventChunks = w.rows.eventChunks ∧
      ∃ c : RepoCall, c.IsIndexWrite ∧ w'.failures = w.failures ++ [c] := by
  obtain ⟨done, c, rest, w₁, hcs, hpath, hraised⟩ := h
  have hfailures : w'.failures = w.failures ++ [c] := by rw [hraised.failures, hpath.failures]
  rcases done with _ | ⟨d, _ | ⟨d', done⟩⟩
  · simp only [List.nil_append, List.cons.injEq] at hcs
    obtain ⟨rfl, -⟩ := hcs
    exact ⟨by rw [hraised.rows, hpath.rows]; rfl, .saveEmbeddingRecords [record], trivial, hfailures⟩
  · simp only [List.cons_append, List.nil_append, List.cons.injEq] at hcs
    obtain ⟨rfl, rfl, -⟩ := hcs
    exact ⟨by rw [hraised.rows, hpath.rows]; rfl, .setChunkEmbeddingStatus id status, trivial,
      hfailures⟩
  · simp at hcs

/-- From a pending chunk on, the step ends in a chunk that is ready or failed exactly when
the provider raised or gave one vector, and none of the writes that decide raised. -/
theorem EmbedOutcome.indexed_iff (h : EmbedOutcome env client chunk answer w r w')
    (hc : chunk ∈ w.rows.eventChunks) (hpending : chunk.embeddingStatus = .pending) :
    ∃ fs, w'.failures = w.failures ++ fs ∧
      (w'.rows.Indexed client chunk ↔ OneVector answer ∧ ∀ c ∈ fs, ¬ c.IsIndexWrite) := by
  cases h with
  | @mismatch vectors _ _ hanswer hlength hl =>
    have hfailures : w'.failures = w.failures ++ [] := by rw [hl.failures, List.append_nil]
    refine ⟨[], hfailures, iff_of_false ?_ fun h => hlength (h.1 vectors hanswer)⟩
    rw [hl.rows]
    exact Tables.not_indexed hc hpending
  | @stored record _ _ hanswer hr hm hcs =>
    cases r with
    | ok =>
      have hfailures : w'.failures = w.failures ++ [] := by rw [hcs.2.failures, List.append_nil]
      have hrows : w'.rows = (w.rows.putRecords [record]).setStatus chunk.chunkId .ready := hcs.2.rows
      refine ⟨[], hfailures, iff_of_true ?_ ⟨fun vectors hv => ?_, List.forall_mem_nil _⟩⟩
      · have hmem : chunk.withStatus .ready ∈ w'.rows.eventChunks := by
          rw [hrows]
          exact Tables.mem_setStatus.mpr ⟨chunk, hc, (if_pos rfl).symm⟩
        have hrecord : record ∈ w'.rows.embeddingRecords := by
          rw [hrows]
          exact Table.mem_put_self
        exact ⟨_, hmem, rfl, .inl ⟨rfl, client, rfl, record, hrecord, hr.chunk.symm, hm⟩⟩
      · rw [hanswer] at hv
        cases hv
        rfl
    | error e =>
      obtain ⟨hchunks, c, hwrite, hfailures⟩ := hcs.index_stopped
      rw [← hchunks] at hc
      refine ⟨[c], hfailures, iff_of_false (Tables.not_indexed hc hpending) fun h => ?_⟩
      exact h.2 c (List.mem_singleton_self c) hwrite
  | @unmarked exc e _ hanswer hcs =>
    obtain ⟨done, c, rest, w₁, heq, hpath, hraised⟩ := hcs
    rcases done with _ | ⟨d, done⟩
    swap
    · simp at heq
    simp only [List.nil_append, List.cons.injEq] at heq
    obtain ⟨rfl, -⟩ := heq
    have hfailures := hraised.failures.trans (congrArg (· ++ _) hpath.failures)
    have hrows : w'.rows = w.rows := hraised.rows.trans hpath.rows
    refine ⟨_, hfailures, iff_of_false ?_ fun h => ?_⟩
    · rw [hrows]
      exact Tables.not_indexed hc hpending
    · exact h.2 _ (List.mem_singleton_self _) trivial
  | @failed exc d w₁ _ hanswer hd hp hdead =>
    have hone : OneVector answer := by
      intro vectors hv
      rw [hanswer] at hv
      cases hv
    have hrows : w₁.rows = w.rows.setStatus chunk.chunkId .failed := hp.rows
    have hmarked : ∀ {T : Tables}, T.eventChunks = w₁.rows.eventChunks → T.Indexed client chunk := by
      intro T hT
      have hmem : chunk.withStatus .failed ∈ T.eventChunks := by
        rw [hT, hrows]
        exact Tables.mem_setStatus.mpr ⟨chunk, hc, (if_pos rfl).symm⟩
      have hlisted : chunk.withStatus .failed ∈ T.failedChunks chunk.communityId :=
        Tables.mem_failedChunks.mpr ⟨hmem, rfl, rfl⟩
      exact ⟨_, hmem, rfl, .inr ⟨rfl, hlisted⟩⟩
    rcases hdead with hdead | ⟨e, hdead⟩
    · have hfailures : w'.failures = w.failures ++ [] := by
        rw [hdead.failures, hp.failures, List.append_nil]
      have hchunks : w'.rows.eventChunks = w₁.rows.eventChunks := by
        rw [hdead.rows]
        rfl
      exact ⟨[], hfailures, iff_of_true (hmarked hchunks) ⟨hone, List.forall_mem_nil _⟩⟩
    · have hfailures : w'.failures = w.failures ++ [.saveIndexingDeadLetter d] := by
        rw [hdead.failures, hp.failures]
      refine ⟨_, hfailures, iff_of_true (hmarked ?_) ⟨hone, fun c hcm => ?_⟩⟩
      · rw [hdead.rows]
      · rw [List.mem_singleton.mp hcm]
        exact id

/-- The embedding step of an ingest, if it gets there : the provider is asked once, about
the pending chunk of the new note, and the rest is its outcome. -/
theorem IngestOutcome.embedding {service : DomainService} {message : InboundMessage}
    {r : Except Exn IngestResult} (h : IngestOutcome env service message w r w') :
    w'.asked = w.asked ∨ ∃ (client : EmbeddingClient) (chunk : EventChunk)
      (w₁ w₂ : World (kind.backend engine).State) (r : Except Exn Unit),
      service.embeddingClient = some client ∧ chunk ∈ w₁.rows.eventChunks ∧
      chunk.embeddingStatus = .pending ∧ w.log <+: w₁.log ∧ w₁.failures = w.failures ∧
      w₁.asked = w.asked ∧ Told (.embed [chunk]) w₁ w₂ ∧
      EmbedOutcome env client chunk (env.embed w₁.tick [chunk.chunkText]) w₂ r w' := by
  cases h with
  | refused hl hr => exact .inl (hr.asked.trans hl.asked)
  | replayed hexisting hs hp hc => exact .inl (hc.asked.trans hp.asked)
  | fresh hnone hunused hp ho =>
    cases ho with
    | removed hroute hc => exact .inl (hc.asked.trans hp.asked)
    | unparsed => exact .inl hp.asked
    | stopped hroute hparse hids hu hc => exact .inl (hc.asked.trans hp.asked)
    | @saved parsed noteId chunkId r₁ w₂ _ hroute hparse hids hu hcalls hembed =>
      cases hembed with
      | skipped => exact .inl (hcalls.asked.trans hp.asked)
      | @asked client chunk _ w₃ _ hclient hchunks ht ho =>
        have hchunk : chunk ∈ _ := hchunks ▸ List.mem_singleton_self chunk
        have hmem := (Revision.mem_save_chunks rfl hu).mpr (.inl hchunk)
        rw [← Revision.effects_calls, ← hcalls.rows] at hmem
        have hpending : chunk.embeddingStatus = .pending := by
          rw [((Revision.mem_chunks rfl).mp hchunk).2]
          rfl
        exact .inr ⟨client, chunk, _, _, r₁, hclient, hmem, hpending, hp.log.trans hcalls.log,
          hcalls.failures.trans hp.failures, hcalls.asked.trans hp.asked, ht, ho⟩

end Step

/-- After an ingest that asked its embedding client about a new chunk, whatever failed, the
chunk is ready with its record, or failed and listed, exactly when the client raised or gave
one vector and none of the writes of records and statuses raised. -/
theorem embedding_step_indexed_iff (kind : StoreKind) (engine : SearchEngine) (env : Env)
    (ops : List Operation) (service : DomainService) (message : InboundMessage) :
    let w := runAll (kind.backend engine) env (World.initial kind engine) ops
    let w' := ((service.ingest message).exec (kind.backend engine) env w).2
    ∀ chunks, SystemCall.embed chunks ∈ w'.asked.drop w.asked.length →
      ∃ client chunk n e, service.embeddingClient = some client ∧ chunks = [chunk] ∧
        w.tick ≤ n ∧ w'.log[n]? = some e ∧ e.call = .sys (.embed chunks) ∧
        (w'.rows.Indexed client chunk ↔ OneVector (env.embed n [chunk.chunkText]) ∧
          ∀ c ∈ w'.failures.drop w.failures.length, ¬ c.IsIndexWrite) := by
  intro w w' chunks hasked
  have hs : Sound env w := sound_run env ops
  rcases (ingest_outcome hs service message).embedding with hnone | hstep
  · rw [hnone, List.drop_length] at hasked
    cases hasked
  obtain ⟨client, chunk, w₁, w₂, r, hclient, hchunk, hpending, hlog, hfailures, hasked₁, ht, ho⟩ := hstep
  have hall : w'.asked = w.asked ++ [.embed [chunk]] := by
    rw [← hasked₁]
    exact ho.asked.trans ht.asked
  rw [hall, List.drop_left, List.mem_singleton] at hasked
  cases hasked
  rw [← ht.rows] at hchunk
  obtain ⟨fs, hfs, hiff⟩ := ho.indexed_iff hchunk hpending
  have hdrop : w'.failures.drop w.failures.length = fs := by
    rw [hfs, ht.failures, hfailures, List.drop_left]
  have hentry : w'.log[w₁.tick]? = some ⟨w₁.rows, .sys (.embed [chunk]), false⟩ := by
    obtain ⟨rest, hrest⟩ := ho.log
    rw [← hrest, ht.entry, World.tick]
    simp
  exact ⟨client, chunk, w₁.tick, _, hclient, rfl, hlog.length_le, hentry, rfl, hdrop.symm ▸ hiff⟩

/-- A client that answers with no vector leaves the new chunk pending. -/
theorem embedding_step_mismatch :
    let env : Env := { Env.steady with embed := fun _ _ => .ok [] }
    let client : EmbeddingClient := ⟨"model", 1⟩
    let w' := ((DomainService.ingest ⟨some client⟩ (.plain .note "2026-05-09\nwalk" 0)).exec
      (StoreKind.mock.backend .plain) env (World.initial .mock .plain)).2
    w'.failures = [] ∧ ¬ ∀ chunk ∈ w'.rows.eventChunks, w'.rows.Indexed client chunk := by
  intro env client w'
  have hpending : ∃ chunk ∈ w'.rows.eventChunks.rows, chunk.embeddingStatus = .pending := by
    decide +kernel
  obtain ⟨chunk, hc, hp⟩ := hpending
  exact ⟨by decide +kernel, fun hall => Tables.not_indexed hc hp (hall chunk hc)⟩

end DiaryMemory
