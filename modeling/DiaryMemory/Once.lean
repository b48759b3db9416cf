import DiaryMemory.Deliveries

/-!
# A message state is handled once

However many deliveries of a new message state are handled at the same time, and in whatever
order their calls come, one source row holds its key at the end, with at most one note, at most
one chunk and at most one record under each model, and at most one provider call was made
(`delivered_once`).

One of the deliveries reports that it was the first, the others that they replay it, as long
as the embedding client answers with one vector for each text : an answer of another length
raises out of the ingest that stored the row (`not_delivered_mismatch`).
-/

namespace DiaryMemory

variable {kind : StoreKind} {engine : SearchEngine} {env : Env}

/-! ## The rows of a message state -/

/-- One source row holds the key, and what is derived from it is there at most once. -/
def Tables.HandledOnce (T : Tables) (key : MessageKey) : Prop :=
  ∃ s, (T.sourceMessages.rows.filter fun x => x.messageKey = key) = [s] ∧
    (T.notes.rows.countP fun n => n.sourceMessageId = s.sourceMessageId) ≤ 1 ∧
    (T.eventChunks.rows.countP fun c => c.sourceMessageId = s.sourceMessageId) ≤ 1 ∧
    ∀ model, (T.embeddingRecords.rows.countP fun r =>
      r.sourceMessageId = s.sourceMessageId ∧ r.modelName = model) ≤ 1

theorem Table.countP_le_one {K V : Type} [DecidableEq K] {key : V → K} {t : Table key}
    {p : V → Bool} (h : ∀ x ∈ t, p x = true → ∀ y ∈ t, p y = true → x = y) :
    t.rows.countP p ≤ 1 := by
  rw [List.countP_eq_length_filter]
  refine length_le_one_of_nodup (t.rows_nodup.filter p) fun a ha b hb => ?_
  obtain ⟨ha, hpa⟩ := List.mem_filter.mp ha
  obtain ⟨hb, hpb⟩ := List.mem_filter.mp hb
  exact h a ha hpa b hb hpb

theorem Tables.Linked.handledOnce {T : Tables} (hT : T.Linked) {s : SourceMessage}
    (hs : s ∈ T.sourceMessages) : T.HandledOnce s.messageKey := by
  refine ⟨s, ?_, Table.countP_le_one ?_, Table.countP_le_one ?_, fun model =>
    Table.countP_le_one ?_⟩
  · have hmem : s ∈ T.sourceMessages.rows.filter fun x => x.messageKey = s.messageKey := by
      simpa using hs
    obtain ⟨x, hx⟩ := List.length_eq_one_iff.mp (le_antisymm
      (length_le_one_of_nodup (T.sourceMessages.rows_nodup.filter _) fun a ha b hb => by
        simp only [List.mem_filter, Table.mem_rows, decide_eq_true_eq] at ha hb
        exact hT.key_unique a ha.1 b hb.1 (ha.2.trans hb.2.symm)) (List.length_pos_of_mem hmem))
    rw [hx] at hmem ⊢
    rw [List.mem_singleton.mp hmem]
  · intro n hn hid n' hn' hid'
    exact hT.note_unique n hn n' hn' ((of_decide_eq_true hid).trans (of_decide_eq_true hid').symm)
  · intro c hc hid c' hc' hid'
    exact hT.chunk_eq_of_source hc hc' ((of_decide_eq_true hid).trans (of_decide_eq_true hid').symm)
  · intro r hr hid r' hr' hid'
    obtain ⟨hsource, hmodel⟩ := of_decide_eq_true hid
    obtain ⟨hsource', hmodel'⟩ := of_decide_eq_true hid'
    obtain ⟨c, hc, ho⟩ := hT.record_chunk r hr
    obtain ⟨c', hc', ho'⟩ := hT.record_chunk r' hr'
    have hcc : c = c' := hT.chunk_eq_of_source hc hc' <| by
      rw [ho.source, hsource, ho'.source, hsource']
    have hkey : r.chunkModel = r'.chunkModel := by
      rw [EmbeddingRecord.chunkModel, EmbeddingRecord.chunkModel, ← ho.chunk, ← ho'.chunk, hcc,
        hmodel, hmodel']
    exact Table.eq_of_key hr hr' hkey

/-! ## The first delivery -/

/-- The answers to the embedding calls from `w` on have one vector for each text. -/
def OneVectorEach (env : Env) (w w' : World (kind.backend engine).State) : Prop :=
  ∀ (n : Nat) (e : Event) (chunks : List EventChunk) (vectors : List Vec), w.tick ≤ n →
    w'.log[n]? = some e → e.call = .sys (.embed chunks) →
    env.embed n (chunks.map EventChunk.chunkText) = .ok vectors → vectors.length = chunks.length

/-- An ingest of a new message state asks at most one provider, and returns where nothing
fails. -/
theorem IngestOutcome.first {service : DomainService} {message : InboundMessage}
    {w w' : World (kind.backend engine).State} {r : Except Exn IngestResult}
    (h : IngestOutcome env service message w r w')
    (hnone : w.rows.sourceForKey message.messageKey = none) (hfailures : w'.failures = w.failures)
    (heach : OneVectorEach env w w') : ∃ result, r = .ok result ∧ result.replayed = false := by
  cases h with
  | refused hl hr =>
    have hraised := hr.failures
    rw [hfailures, hl.failures] at hraised
    simp at hraised
  | replayed hexisting =>
    rw [hnone] at hexisting
    cases hexisting
  | fresh _ hunused hp ho =>
    rw [← hp.failures] at hfailures
    cases ho with
    | removed hroute hc =>
      obtain ⟨result, rfl, rfl, -⟩ := hc.returned hfailures
      exact ⟨_, rfl, rfl⟩
    | unparsed => exact ⟨_, rfl, rfl⟩
    | stopped hroute hparse hids hu hc =>
      obtain ⟨_, he, -⟩ := hc.returned hfailures
      cases he
    | @saved parsed noteId chunkId r₁ w₂ _ hroute hparse hids hu hcalls hembed =>
      rw [← hcalls.failures] at hfailures
      have hreturned : ∃ u, r₁ = .ok u := by
        cases hembed with
        | skipped => exact ⟨_, rfl⟩
        | @asked client chunk _ w₃ _ hclient hchunks ht ho =>
          rw [← ht.failures] at hfailures
          cases ho with
          | @mismatch vectors _ _ hanswer hlength hl =>
            refine absurd (heach w₂.tick ⟨w₂.rows, .sys (.embed [chunk]), false⟩ [chunk] vectors
              ?_ ?_ rfl hanswer) hlength
            · exact (hp.log.trans hcalls.log).length_le
            · obtain ⟨rest, hrest⟩ := hl.log
              rw [← hrest, ht.entry, List.append_assoc]
              simp [World.tick]
          | stored hanswer hr hm hc =>
            obtain ⟨u, hu, -⟩ := hc.returned hfailures
            exact ⟨u, hu⟩
          | unmarked hanswer hc =>
            obtain ⟨_, he, -⟩ := hc.returned hfailures
            cases he
          | failed => exact ⟨_, rfl⟩
      obtain ⟨u, rfl⟩ := hreturned
      exact ⟨_, rfl, rfl⟩

theorem IngestOutcome.asked_le {service : DomainService} {message : InboundMessage}
    {w w' : World (kind.backend engine).State} {r : Except Exn IngestResult}
    (h : IngestOutcome env service message w r w') :
    (w'.asked.drop w.asked.length).length ≤ 1 := by
  rcases h.embedding with hasked | ⟨_, _, w₁, w₂, r, -, -, -, -, -, hasked, ht, ho⟩
  · rw [hasked, List.drop_length]
    exact Nat.zero_le 1
  · rw [ho.asked, ht.asked, hasked, List.drop_left]
    exact le_rfl

/-! ## Every delivery -/

section Together

variable {ι : Type} {service : ι → DomainService} {message : ι → InboundMessage}
  {w₀ w : World (kind.backend engine).State} {results : ι → Except Exn IngestResult} {i : ι}

/-- The condition holds of the calls of one delivery when it holds of all calls. -/
theorem EndsAlone.oneVectorEach {service : DomainService} {message : InboundMessage}
    {r : Except Exn IngestResult} {v : World (kind.backend engine).State} {moment : ℕ → ℕ}
    {ids : Equiv.Perm ℕ} (h : EndsAlone env service message w₀ w r v moment ids)
    (heach : OneVectorEach env w₀ w) : OneVectorEach (env.along moment ids) w₀ v := by
  intro n e chunks vectors hn he hcall hanswer
  obtain ⟨hm, hentry⟩ := h.entry n hn (List.getElem?_eq_some_iff.mp he).1
  exact heach (moment n) e chunks vectors hm (hentry.trans he) hcall hanswer

theorem EndsAlone.first {service : DomainService} {message : InboundMessage}
    {r : Except Exn IngestResult} {v : World (kind.backend engine).State} {moment : ℕ → ℕ}
    {ids : Equiv.Perm ℕ} (h : EndsAlone env service message w₀ w r v moment ids)
    (hnone : w₀.rows.sourceForKey message.messageKey = none) (hfailures : w.failures = w₀.failures)
    (heach : OneVectorEach env w₀ w) : ∃ result, r = .ok result ∧ result.replayed = false :=
  h.outcome.first hnone (h.failures hfailures) (h.oneVectorEach heach)

/-- What a replay reports. -/
theorem Decided.replayed {s : SourceMessage} (h : Decided env service message w₀ w results i s)
    {j : ι} (hj : j ≠ i) {result : IngestResult} (hr : results j = .ok result) :
    result.replayed = true := by
  rcases h.others j hj with he | hend | ⟨note, hend, -⟩
  · rw [hr] at he
    cases he
  · rw [hr] at hend
    rcases hend with he | ⟨-, he⟩
    · cases he
    · cases he
      rfl
  · rw [hr] at hend
    cases note with
    | none =>
      rcases hend with he | he
      · cases he
      · cases he
        rfl
    | some n =>
      rcases hend with he | ⟨_, he⟩
      · cases he
      · cases he
        rfl

end Together

/-- Deliveries of one new message state, their calls in any order and none of them raising,
leave one source row with at most one note, one chunk and one record under each model, and ask
one provider at most; where the embedding client answers with one vector for each text, one of
them reports that it did not replay. -/
theorem delivered_once (kind : StoreKind) (engine : SearchEngine) (env : Env)
    (ops : List Operation) {ι : Type} [DecidableEq ι] [Nonempty ι] (service : ι → DomainService)
    (message : ι → InboundMessage) (key : MessageKey) (schedule : List ι)
    (results : ι → Except Exn IngestResult) :
    let w := runAll (kind.backend engine) env (World.initial kind engine) ops
    let pool := (deliveries service message w).run (serve (kind.backend engine) env) schedule
    w.rows.sourceForKey key = none → (∀ i, (message i).messageKey = key) →
    pool.Returned results → pool.state.failures = w.failures → OneVectorEach env w pool.state →
    pool.state.rows.HandledOnce key ∧
      (pool.state.asked.drop w.asked.length).length ≤ 1 ∧
      ∃! i, ∃ result, results i = .ok result ∧ result.replayed = false := by
  intro w pool hnone hkey hresults hfailures heach
  have hs : Sound env w := sound_run env ops
  rcases deliveries_run hs hnone hkey hresults with ⟨-, hraised⟩ | ⟨i, s, h⟩
  · obtain ⟨i⟩ := ‹Nonempty ι›
    obtain ⟨hraise, halone⟩ := hraised i
    obtain ⟨v, moment, ids, hends⟩ := halone.returned
    obtain ⟨result, hr, -⟩ := hends.first ((hkey i).symm ▸ hnone) hfailures heach
    rw [hr] at hraise
    cases hraise
  · obtain ⟨v, moment, ids, hends⟩ := h.alone
    have hlinked : pool.state.rows.Linked := hends.rows ▸ hends.sound.linked
    refine ⟨?_, ?_, i, hends.first ((hkey i).symm ▸ hnone) hfailures heach, ?_⟩
    · rw [← hkey i, ← h.key]
      exact hlinked.handledOnce h.source
    · rw [← hends.asked]
      exact hends.outcome.asked_le
    · rintro j ⟨result, hr, hfirst⟩
      by_contra hj
      rw [h.replayed hj hr] at hfirst
      cases hfirst

/-- Two deliveries of a note, taking turns : the second replays the row of the first. -/
theorem delivered_once_turns :
    let service : Fin 2 → DomainService := fun _ => ⟨some ⟨"model", 1⟩⟩
    let message : Fin 2 → InboundMessage := fun _ => .plain .note "2026-05-09\nwalk" 0
    let pool := (deliveries service message (World.initial .mock .plain)).run
      (serve (StoreKind.mock.backend .plain) .steady) (List.replicate 12 [0, 1]).flatten
    pool.state.rows.HandledOnce ("chat", "message", 0) ∧ (pool.state.asked.drop 0).length ≤ 1 ∧
      ∃! i, ∃ result, (pool.progs i).value? = some (.ok result) ∧ result.replayed = false := by
  intro service message pool
  let results : Fin 2 → Except Exn IngestResult := fun i =>
    (pool.progs i).value?.getD (.error .assertionError)
  have hvalue : ∀ i, (pool.progs i).value? = some (results i) := by decide +kernel
  have honce := delivered_once .mock .plain .steady [] service message ("chat", "message", 0)
    (List.replicate 12 [0, 1]).flatten results (by decide +kernel) (fun _ => rfl)
    (fun i => Prog.eq_ret_of_value? (hvalue i)) (by decide +kernel) fun _ _ _ _ _ _ _ hanswer => by
      cases hanswer
      simp
  obtain ⟨hrows, hasked, hfirst⟩ := honce
  refine ⟨hrows, hasked, ?_⟩
  simpa only [hvalue, Option.some.injEq] using hfirst

/-- A client that answers with no vector : the first delivery raises, the other replays, and
none reports that it was the first. -/
theorem not_delivered_mismatch :
    let env : Env := { Env.steady with embed := fun _ _ => .ok [] }
    let service : Fin 2 → DomainService := fun _ => ⟨some ⟨"model", 1⟩⟩
    let message : Fin 2 → InboundMessage := fun _ => .plain .note "2026-05-09\nwalk" 0
    let pool := (deliveries service message (World.initial .mock .plain)).run
      (serve (StoreKind.mock.backend .plain) env) (List.replicate 12 [0, 1]).flatten
    pool.state.failures = [] ∧ (∀ i, (pool.progs i).value?.isSome) ∧
      ∀ i result, (pool.progs i).value? = some (.ok result) → result.replayed = true := by
  intro env service message pool
  refine ⟨by decide +kernel, by decide +kernel, fun i result hr => ?_⟩
  have hall : ∀ i, ((pool.progs i).value?.bind Except.toOption).all IngestResult.replayed = true := by
    decide +kernel
  have hi := hall i
  rw [hr] at hi
  exact hi

end DiaryMemory
