import DiaryMemory.Revision

/-!
# What the ingestion service does

`EmbedOutcome` says where the embedding of a new chunk may end, `IngestOutcome` where an
ingest may : the message state was seen before and its result is rebuilt from the rows it
left (`rebuilt`), or its source row was added and the message is handled for the first
time (`FreshOutcome`). Each lists the calls that returned, as a path, and where a call
that raised stops it.
-/

namespace DiaryMemory

variable {kind : StoreKind} {engine : SearchEngine} {env : Env}
  {P : Call → Tables → Prop} {w : World (kind.backend engine).State}

/-! ## Embedding -/

theorem wp_embed_bind {β : Type} {chunks : List EventChunk}
    {f : Except Exn (List Vec) → Proc β} {Q : Except Exn β → World (kind.backend engine).State → Prop}
    (hP : P (.sys (.embed chunks)) w.rows)
    (h : ∀ w', Sound env w' → Told (.embed chunks) w w' →
      wp (contract kind engine env P) (f (env.embed w.tick (chunks.map EventChunk.chunkText))) Q w') :
    wp (contract kind engine env P) (capture (Proc.embed chunks) >>= f) Q w := by
  rw [wp_bind]
  refine (wp_capture _ _ w).mpr (wp_sys hP ?_)
  rintro r w' hs ht rfl
  exact h w' hs ht

/-- Where embedding a chunk may end, from the moment the provider gave its answer. -/
inductive EmbedOutcome (env : Env) (client : EmbeddingClient) (chunk : EventChunk)
    (answer : Except Exn (List Vec)) (w : World (kind.backend engine).State) :
    Except Exn Unit → World (kind.backend engine).State → Prop
  /-- The provider answered with other than one vector. -/
  | mismatch {vectors : List Vec} {e : Exn} {w'} (hanswer : answer = .ok vectors)
      (hlength : vectors.length ≠ 1) (hl : Later w w') :
      EmbedOutcome env client chunk answer w (.error e) w'
  /-- The record is stored, then the chunk ready. -/
  | stored {record : EmbeddingRecord} {r : Except Exn Unit} {w'}
      (hanswer : answer = .ok [record.embedding]) (hr : RecordOf chunk record)
      (hm : record.modelName = client.modelName)
      (hc : Completes env [.saveEmbeddingRecords [record],
        .setChunkEmbeddingStatus chunk.chunkId .ready] w (fun _ => True) r w') :
      EmbedOutcome env client chunk answer w r w'
  /-- The provider raised, and the chunk could not be marked. -/
  | unmarked {exc e : Exn} {w'} (hanswer : answer = .error exc)
      (hc : Completes env [.setChunkEmbeddingStatus chunk.chunkId .failed] w
        (fun _ : Unit => True) (.error e) w') :
      EmbedOutcome env client chunk answer w (.error e) w'
  /-- The provider raised; the dead letter is kept or lost. -/
  | failed {exc : Exn} {d : IndexingDeadLetter} {w₁ w'} (hanswer : answer = .error exc)
      (hd : d.sourceMessageId = chunk.sourceMessageId)
      (hp : Path env w [.setChunkEmbeddingStatus chunk.chunkId .failed] w₁)
      (hdead : Returned env (.saveIndexingDeadLetter d) w₁ () w' ∨
        ∃ e, Raised env (.saveIndexingDeadLetter d) w₁ e w') :
      EmbedOutcome env client chunk answer w (.ok ()) w'

section Embedding

variable {community : String} {client : EmbeddingClient} {chunk : EventChunk} {now : DateTime}

theorem wp_setStatuses_singleton (status : EmbeddingStatus)
    (hc : ∃ c ∈ w.rows.eventChunks, c.chunkId = chunk.chunkId)
    (hP : P (.repo (.setChunkEmbeddingStatus chunk.chunkId status)) w.rows) :
    wp (contract kind engine env P) (setStatuses status [chunk])
      (Completes env [.setChunkEmbeddingStatus chunk.chunkId status] w fun _ => True) w :=
  completes_repo_bind ⟨hc, nofun⟩ hP fun _ _ _ _ => completes_pure trivial

/-- The records of one chunk, when there is one vector. -/
theorem wp_buildRecords_singleton {source : String} (vectors : List Vec)
    (hP : ∀ T, P (.sys .uuid4) T) {Q : Except Exn (List EmbeddingRecord) → _ → Prop}
    (hmismatch : ∀ e w', Later w w' → vectors.length ≠ 1 → Q (.error e) w')
    (hone : ∀ vector j w', vectors = [vector] → Sound env w' → Later w w' → w.draws ≤ j →
      j < w'.draws → Q (.ok [⟨env.uuid j, chunk.chunkId, source, community, client.modelName,
        client.dimension, vector, now⟩]) w') :
    wp (contract kind engine env P) (buildRecords client source community now [chunk] vectors) Q w := by
  match vectors with
  | [] => exact hmismatch _ w (.refl w) nofun
  | [vector] =>
    exact wp_uuid4_bind (hP _) fun j w' hs ht hj hj' =>
      hone vector j w' rfl hs (ht.later rfl nofun) hj hj'
  | _ :: _ :: _ =>
    refine wp_uuid4_bind (hP _) fun j w' _ ht _ _ => hmismatch _ w' (ht.later rfl nofun) ?_
    simp

theorem wp_recordEmbeddingFailure (hs : Sound env w) (hchunk : chunk ∈ w.rows.eventChunks)
    (hactive : chunk.lifecycleState = .active)
    (hP : ∀ c T, IngestCall env (some client) chunk.sourceMessageId chunk.communityId c T → P c T)
    (exc : Exn) :
    wp (contract kind engine env P)
      (DomainService.recordEmbeddingFailure client [chunk] chunk.sourceMessageId chunk.communityId
        now exc)
      (EmbedOutcome env client chunk (.error exc) w) w := by
  refine wp_uuid4_bind (hP _ _ trivial) fun j w₁ hs₁ ht hj hj' => ?_
  have hl := ht.later rfl nofun
  have hchunk₁ : chunk ∈ w₁.rows.eventChunks := hl.rows ▸ hchunk
  refine wp_seq hs₁ (wp_setStatuses_singleton .failed ⟨chunk, hchunk₁, rfl⟩
    (hP _ _ ⟨⟨chunk, hchunk₁, rfl, rfl, rfl, hactive⟩, nofun⟩)) (fun e w₂ _ hc => ?_)
    fun _ w₂ hs₂ hc => ?_
  · exact .unmarked rfl (.later hl hc)
  · have hp := Path.append (.of_later hl) hc.2
    have hrows : w₂.rows = w.rows.setStatus chunk.chunkId .failed := hp.rows
    have hguard : ∀ d : IndexingDeadLetter, d.deadLetterId = env.uuid j →
        d.sourceMessageId = chunk.sourceMessageId →
        Allowed env w₂ (.repo (.saveIndexingDeadLetter d)) := by
      intro d hid hsource
      have hfresh : ∀ x ∈ w₂.rows.indexingDeadLetters, x.deadLetterId ≠ d.deadLetterId := by
        rw [hrows, hid]
        exact fun x hx => (hs.minted.deadLetter x hx).ne env.uuid_injective hj
      obtain ⟨n, hn, ho⟩ := hs.linked.chunk_note chunk hchunk
      obtain ⟨s, hsm, hno⟩ := hs.linked.note_source n hn
      refine ⟨⟨hfresh, s, ?_, hno.source.trans (ho.source.trans hsource.symm)⟩, fun id hmem => ?_⟩
      · rw [hrows]
        exact hsm
      · rw [List.mem_singleton.mp hmem, hid]
        exact ⟨j, hj'.trans_le hc.2.draws, rfl⟩
    have howns : ∀ d : IndexingDeadLetter, d.chunkIds = [chunk.chunkId] →
        d.sourceMessageId = chunk.sourceMessageId → w₂.rows.OwnsChunks d := by
      intro d hids hsource id hid
      rw [hids, List.mem_singleton] at hid
      have hmarked : chunk.withStatus .failed ∈ w₂.rows.eventChunks := by
        rw [hrows]
        exact Tables.mem_setStatus.mpr ⟨chunk, hchunk, (if_pos rfl).symm⟩
      exact ⟨_, hmarked, hid.symm, hsource.symm⟩
    rw [wp_bind]
    refine (wp_capture _ _ w₂).mpr (wp_repo (hguard _ rfl rfl) (hP _ _ ⟨rfl, rfl, howns _ rfl rfl⟩)
      (fun e w₃ _ hr => ?_) fun _ w₃ _ hr => ?_)
    · exact .failed rfl rfl hp (.inr ⟨e, hr⟩)
    · exact .failed rfl rfl hp (.inl hr)

/-- A new chunk is embedded. -/
theorem wp_embedChunks (hchunk : chunk ∈ w.rows.eventChunks)
    (hactive : chunk.lifecycleState = .active)
    (hP : ∀ c T, IngestCall env (some client) chunk.sourceMessageId chunk.communityId c T → P c T) :
    wp (contract kind engine env P)
      (DomainService.embedChunks client [chunk] chunk.sourceMessageId chunk.communityId now)
      (fun r w' => ∃ w₁, Told (.embed [chunk]) w w₁ ∧
        EmbedOutcome env client chunk (env.embed w.tick [chunk.chunkText]) w₁ r w') w := by
  have hone : ∀ {T : Tables}, chunk ∈ T.eventChunks →
      T.ActiveChunk chunk.sourceMessageId chunk.communityId chunk.chunkId :=
    fun h => ⟨chunk, h, rfl, rfl, rfl, hactive⟩
  refine wp_embed_bind (hP _ _ fun c hc => ?_) fun w₁ hs₁ ht => ?_
  · rw [List.mem_singleton.mp hc]
    exact ⟨hchunk, rfl, hactive⟩
  rw [← ht.rows] at hchunk
  have htexts : [chunk].map EventChunk.chunkText = [chunk.chunkText] := rfl
  rw [htexts]
  cases hanswer : env.embed w.tick [chunk.chunkText] with
  | error exc =>
    exact wp_imp (fun _ _ hc => ⟨w₁, ht, hc⟩) (wp_recordEmbeddingFailure hs₁ hchunk hactive hP exc)
  | ok vectors =>
    refine wp_imp (fun _ _ hc => ⟨w₁, ht, hc⟩) ?_
    dsimp only
    rw [wp_bind]
    refine wp_buildRecords_singleton vectors (fun T => hP _ T trivial)
      (fun e w' hl hlen => .mismatch rfl hlen hl) fun vector j w₂ hone' hs₂ hl hj hj' => ?_
    subst hone'
    have hrecord : RecordOf chunk ⟨env.uuid j, chunk.chunkId, chunk.sourceMessageId, chunk.communityId,
      client.modelName, client.dimension, vector, now⟩ := ⟨rfl, rfl, rfl⟩
    have hchunk₂ : chunk ∈ w₂.rows.eventChunks := hl.rows ▸ hchunk
    refine wp_imp (fun _ _ hc => .stored rfl hrecord rfl (.later hl hc))
      (completes_repo_bind ⟨⟨le_rfl, fun r hr => ?_⟩, fun id hid => ?_⟩ (hP _ _ fun r hr => ?_)
        fun _ w₃ hs₃ hr => ?_)
    · rw [List.mem_singleton.mp hr, hl.rows]
      exact ⟨fun x hx => (hs₁.minted.record x hx).ne env.uuid_injective hj, chunk, hchunk, hrecord⟩
    · rw [List.mem_singleton.mp hid]
      exact ⟨j, hj', rfl⟩
    · rw [List.mem_singleton.mp hr]
      exact ⟨rfl, ⟨⟨client, rfl, rfl⟩, chunk, hchunk₂, hrecord, w.tick, hanswer⟩, hone hchunk₂⟩
    · have hchunk₃ : chunk ∈ w₃.rows.eventChunks := by
        rw [hr.rows]
        exact hchunk₂
      have hstored : w₃.rows.HasRecord (some client) chunk.chunkId := by
        rw [hr.rows]
        exact ⟨client, rfl, _, Table.mem_put_self, rfl, rfl⟩
      exact wp_setStatuses_singleton .ready ⟨chunk, hchunk₃, rfl⟩
        (hP _ _ ⟨hone hchunk₃, fun _ => hstored⟩)

end Embedding

/-- Where the embedding of the chunks of a new note may end. -/
inductive EmbedNewOutcome (env : Env) (service : DomainService) (chunks : List EventChunk)
    (w : World (kind.backend engine).State) :
    Except Exn Unit → World (kind.backend engine).State → Prop
  | skipped (h : service.embeddingClient = none ∨ chunks = []) :
      EmbedNewOutcome env service chunks w (.ok ()) w
  | asked {client : EmbeddingClient} {chunk : EventChunk} {r : Except Exn Unit} {w₁ w'}
      (hclient : service.embeddingClient = some client) (hchunks : chunks = [chunk])
      (ht : Told (.embed [chunk]) w w₁)
      (ho : EmbedOutcome env client chunk (env.embed w.tick [chunk.chunkText]) w₁ r w') :
      EmbedNewOutcome env service chunks w r w'

theorem wp_embedNew {service : DomainService} {chunks : List EventChunk}
    {source community : String} {now : DateTime} (hlength : chunks.length ≤ 1)
    (hchunks : ∀ c ∈ chunks, c ∈ w.rows.eventChunks ∧ c.lifecycleState = .active ∧
      c.sourceMessageId = source ∧ c.communityId = community)
    (hP : ∀ c T, IngestCall env service.embeddingClient source community c T → P c T) :
    wp (contract kind engine env P) (service.embedNew source community now chunks)
      (EmbedNewOutcome env service chunks w) w := by
  unfold DomainService.embedNew
  cases hclient : service.embeddingClient with
  | none => exact .skipped (.inl hclient)
  | some client =>
    match chunks, hlength with
    | [], _ => exact .skipped (.inr rfl)
    | [chunk], _ =>
      obtain ⟨hmem, hactive, rfl, rfl⟩ := hchunks chunk List.mem_cons_self
      refine wp_imp (fun _ _ h => ?_) (wp_embedChunks hmem hactive (hclient ▸ hP))
      obtain ⟨w₁, ht, ho⟩ := h
      exact .asked hclient rfl ht ho

/-! ## Message states seen before -/

/-- The result of a message state seen before, rebuilt from the rows it left. -/
def rebuilt (T : Tables) (source : SourceMessage) : IngestResult :=
  if source.detectedRoute = .draft then
    { fallback := .none, sourceMessageId := source.sourceMessageId, replayed := true }
  else
    match T.getNoteBySourceMessageId source.sourceMessageId with
    | none =>
      { fallback := .invalidInput, sourceMessageId := source.sourceMessageId
        invalidFirstLine := some (firstLine source.rawText), replayed := true }
    | some note =>
      { fallback := .none, sourceMessageId := source.sourceMessageId
        noteDate := some note.noteDate
        eventsCount := T.countEventChunksForSource source.sourceMessageId, replayed := true }

/-- The reads that rebuild it. -/
def rebuildCalls (T : Tables) (source : SourceMessage) : List RepoCall :=
  if source.detectedRoute = .draft then []
  else .getNoteBySourceMessageId source.sourceMessageId ::
    ((T.getNoteBySourceMessageId source.sourceMessageId).toList.map fun _ =>
      .countEventChunksForSource source.sourceMessageId)

theorem rebuildCalls_read (T : Tables) (source : SourceMessage) :
    ∀ c ∈ rebuildCalls T source, ∀ T' : Tables, c.effect T' = T' := by
  intro c hc T'
  unfold rebuildCalls at hc
  split at hc
  · cases hc
  · rcases List.mem_cons.mp hc with rfl | hc
    · rfl
    · obtain ⟨_, _, rfl⟩ := List.mem_map.mp hc
      rfl

theorem wp_reconstructResult (source : SourceMessage)
    (hP : ∀ T, P (.repo (.getNoteBySourceMessageId source.sourceMessageId)) T ∧
      P (.repo (.countEventChunksForSource source.sourceMessageId)) T) :
    wp (contract kind engine env P) (DomainService.reconstructResult source)
      (Completes env (rebuildCalls w.rows source) w (· = rebuilt w.rows source)) w := by
  unfold DomainService.reconstructResult rebuildCalls rebuilt
  split
  · exact completes_pure rfl
  · refine completes_repo_bind ⟨trivial, nofun⟩ (hP _).1 fun v w₁ hs₁ hr => ?_
    have hv : v = w.rows.getNoteBySourceMessageId source.sourceMessageId := hr.value
    have hrows : w₁.rows = w.rows := hr.rows
    rw [← hv]
    cases v with
    | none => exact completes_pure rfl
    | some note =>
      refine completes_repo_bind ⟨trivial, nofun⟩ (hP _).2 fun n w₂ hs₂ hr₂ => ?_
      have hn : n = w.rows.countEventChunksForSource source.sourceMessageId := by
        rw [← hrows]
        exact hr₂.value
      rw [hn]
      exact completes_pure rfl

/-! ## Message states seen for the first time -/

/-- The result of a saved note. -/
def savedResult (source : String) (parsed : ParsedNote) (v : Revision) : IngestResult where
  fallback := .none
  sourceMessageId := source
  noteDate := some parsed.noteDate
  eventsCount := v.chunks.length

/-- Where handling a message may end, once its source row is there. -/
inductive FreshOutcome (env : Env) (service : DomainService) (message : InboundMessage)
    (source : String) (now : DateTime) (w : World (kind.backend engine).State) :
    Except Exn IngestResult → World (kind.backend engine).State → Prop
  /-- A draft removes the note it replaces. -/
  | removed {r : Except Exn IngestResult} {w'} (hroute : message.route = .draft)
      (hc : Completes env (removalCalls w.rows message.externalChatId message.externalMessageId
        message.communityId (w.rows.getActiveNoteForExternalMessage message.externalChatId
          message.externalMessageId message.communityId)) w
        (· = { fallback := .none, sourceMessageId := source }) r w') :
      FreshOutcome env service message source now w r w'
  | unparsed (hroute : message.route ≠ .draft) (hparse : parseNote message.payload = none) :
      FreshOutcome env service message source now w
        (.ok { fallback := .invalidInput, sourceMessageId := source
               invalidFirstLine := some (firstLine message.payload) }) w
  /-- The note could not be saved, or the one it replaces not be flipped. -/
  | stopped {parsed : ParsedNote} {noteId chunkId : String} {e : Exn} {w'}
      (hroute : message.route ≠ .draft) (hparse : parseNote message.payload = some parsed)
      (hids : NewIds env w noteId chunkId) (hunused : w.rows.Unused noteId chunkId)
      (hc : Completes env
        ((revision w.rows message source now parsed noteId chunkId).calls message) w
        (fun _ : Unit => True) (.error e) w') :
      FreshOutcome env service message source now w (.error e) w'
  /-- The note is saved and its chunk embedded. -/
  | saved {parsed : ParsedNote} {noteId chunkId : String} {r : Except Exn Unit} {w₁ w'}
      (hroute : message.route ≠ .draft) (hparse : parseNote message.payload = some parsed)
      (hids : NewIds env w noteId chunkId) (hunused : w.rows.Unused noteId chunkId)
      (hp : Path env w ((revision w.rows message source now parsed noteId chunkId).calls message) w₁)
      (ho : EmbedNewOutcome env service
        (revision w.rows message source now parsed noteId chunkId).chunks w₁ r w') :
      FreshOutcome env service message source now w
        (r.map fun _ => savedResult source parsed
          (revision w.rows message source now parsed noteId chunkId)) w'

/-- A message seen for the first time is handled. -/
theorem wp_ingestFresh {service : DomainService} {message : InboundMessage} {source : String}
    {now : DateTime} (hs : Sound env w)
    (hsource : ∃ s ∈ w.rows.sourceMessages, s.sourceMessageId = source ∧
      s.communityId = message.communityId ∧ s.authorUserId = message.externalUserId)
    (hnew : ∀ x ∈ w.rows.notes, x.sourceMessageId ≠ source)
    (hP : ∀ c T, IngestCall env service.embeddingClient source message.communityId c T → P c T) :
    wp (contract kind engine env P) (service.ingestFresh message source now)
      (FreshOutcome env service message source now w) w := by
  unfold DomainService.ingestFresh
  split
  · next hroute =>
    have hlook : MayLookUp P message.externalChatId message.externalMessageId message.communityId :=
      fun _ _ => ⟨hP _ _ trivial, hP _ _ trivial⟩
    have hflip : MayFlip P .tombstoned message.communityId := fun _ _ => ⟨hP _ _ rfl, hP _ _ rfl⟩
    refine wp_imp (fun _ _ hc => .removed hroute hc) ?_
    rw [← List.append_nil (removalCalls _ _ _ _ _)]
    exact completes_seq hs (wp_tombstone hs _ _ hlook hflip) fun _ _ _ _ _ => completes_pure rfl
  · next hroute =>
    split
    · next hparse => exact .unparsed hroute hparse
    · next parsed hparse =>
      refine wp_seq hs (wp_saveRevision hs hsource hnew hP) (fun e w₁ hs₁ hc => ?_)
        fun chunks w₁ hs₁ hc => ?_
      · obtain ⟨noteId, chunkId, hids, hc⟩ := hc
        exact .stopped hroute hparse hids (hids.unused hs) (hc _ rfl)
      · obtain ⟨noteId, chunkId, hids, hc⟩ := hc
        obtain ⟨rfl, hp⟩ := hc _ rfl
        have hunused : w.rows.Unused noteId chunkId := hids.unused hs
        refine wp_seq hs₁ (wp_embedNew (Revision.length_chunks rfl) (fun c hcm => ?_) hP)
          (fun e w₂ _ ho => .saved hroute hparse hids hunused hp ho)
          fun u w₂ _ ho => .saved (r := .ok u) hroute hparse hids hunused hp ho
        have hmem := (Revision.mem_save_chunks rfl hunused).mpr (.inl hcm)
        rw [← Revision.effects_calls, ← hp.rows] at hmem
        obtain ⟨-, rfl⟩ := (Revision.mem_chunks rfl).mp hcm
        exact ⟨hmem, rfl, rfl, rfl⟩

/-! ## Ingesting a message -/

/-- The key a message is identified by. -/
def InboundMessage.messageKey (message : InboundMessage) : MessageKey :=
  (message.externalChatId, message.externalMessageId, message.editSeq)

/-- Where an ingest may end. -/
inductive IngestOutcome (env : Env) (service : DomainService) (message : InboundMessage)
    (w : World (kind.backend engine).State) :
    Except Exn IngestResult → World (kind.backend engine).State → Prop
  | refused {s : SourceMessage} {e : Exn} {w₁ w'} (hl : Later w w₁)
      (hr : Raised env (.getOrCreateSourceMessage s) w₁ e w') :
      IngestOutcome env service message w (.error e) w'
  /-- The message state was seen before. -/
  | replayed {s existing : SourceMessage} {r : Except Exn IngestResult} {w₁ w'}
      (hexisting : w.rows.sourceForKey message.messageKey = some existing)
      (hs : s.messageKey = message.messageKey)
      (hp : Path env w [.getOrCreateSourceMessage s] w₁)
      (hc : Completes env (rebuildCalls w.rows existing) w₁ (· = rebuilt w.rows existing) r w') :
      IngestOutcome env service message w r w'
  /-- Its source row was added. -/
  | fresh {source : String} {now : DateTime} {r : Except Exn IngestResult} {w₁ w'}
      (hnone : w.rows.sourceForKey message.messageKey = none)
      (hunused : ∀ x ∈ w.rows.sourceMessages, x.sourceMessageId ≠ source)
      (hp : Path env w
        [.getOrCreateSourceMessage (DomainService.sourceRow message source now)] w₁)
      (ho : FreshOutcome env service message source now w₁ r w') :
      IngestOutcome env service message w r w'

/-- The rows once the source row of a new message state is added. -/
theorem Path.rows_added {message : InboundMessage} {source : String} {now : DateTime}
    {w₁ : World (kind.backend engine).State}
    (hp : Path env w [.getOrCreateSourceMessage (DomainService.sourceRow message source now)] w₁)
    (hnone : w.rows.sourceForKey message.messageKey = none) :
    w₁.rows = w.rows.putSource (DomainService.sourceRow message source now) := by
  have hkey : w.rows.sourceForKey (DomainService.sourceRow message source now).messageKey = none :=
    hnone
  rw [hp.rows, RepoCall.effects, List.foldl_cons, List.foldl_nil, RepoCall.effect, hkey]

theorem IngestOutcome.later {service : DomainService} {message : InboundMessage}
    {r : Except Exn IngestResult} {w₁ w' : World (kind.backend engine).State} (hl : Later w w₁)
    (h : IngestOutcome env service message w₁ r w') : IngestOutcome env service message w r w' := by
  have hrows := hl.rows
  cases h with
  | refused hl' hr => exact .refused (hl.trans hl') hr
  | replayed hexisting hs hp hc =>
    rw [hrows] at hexisting hc
    exact .replayed hexisting hs (.append (.of_later hl) hp) hc
  | fresh hnone hunused hp ho =>
    rw [hrows] at hnone hunused
    exact .fresh hnone hunused (.append (.of_later hl) hp) ho

/-- An ingest, from the moment its source row is made. -/
theorem wp_ingestRow {service : DomainService} {message : InboundMessage} {now : DateTime}
    (hs : Sound env w) {j : Nat} (hj : j < w.draws)
    (hunused : ∀ x ∈ w.rows.sourceMessages, x.sourceMessageId ≠ env.uuid j)
    (hP : ∀ c T, IngestCall env service.embeddingClient (env.uuid j) message.communityId c T →
      P c T) :
    wp (contract kind engine env P)
      (do
        let (persisted, replayed) ← Proc.getOrCreateSourceMessage
          (DomainService.sourceRow message (env.uuid j) now)
        if replayed then DomainService.reconstructResult persisted
        else service.ingestFresh message persisted.sourceMessageId now)
      (IngestOutcome env service message w) w := by
  have hdrawn : ∀ id ∈ (RepoCall.getOrCreateSourceMessage
      (DomainService.sourceRow message (env.uuid j) now)).newIds, Drawn env.uuid w.draws id := by
    intro id hid
    rw [List.mem_singleton.mp hid]
    exact ⟨j, hj, rfl⟩
  refine wp_repo_bind ⟨hunused, hdrawn⟩ (hP _ _ ⟨rfl, rfl⟩)
    (fun e w₁ _ hr => .refused (.refl w) hr) fun v w₁ hs₁ hr => ?_
  cases hkey : w.rows.sourceForKey message.messageKey with
  | some existing =>
    obtain rfl := (RepoCall.returns_found hkey).mp hr.value
    have hrows : w₁.rows = w.rows := hr.rows.trans (RepoCall.effect_found hkey)
    refine wp_imp (fun r w' hc => .replayed hkey rfl (.single hr) ?_)
      (wp_reconstructResult existing fun T => ⟨hP _ _ trivial, hP _ _ trivial⟩)
    rwa [hrows] at hc
  | none =>
    obtain rfl := (RepoCall.returns_new hkey).mp hr.value
    have hrows : w₁.rows = w.rows.putSource (DomainService.sourceRow message (env.uuid j) now) :=
      hr.rows.trans (RepoCall.effect_new hkey)
    refine wp_imp (fun r w' hc => .fresh hkey hunused (.single hr) hc) (wp_ingestFresh hs₁ ?_ ?_ hP)
    · rw [hrows]
      exact ⟨_, Table.mem_put_self, rfl, rfl, rfl⟩
    · rw [hrows]
      intro x hx
      obtain ⟨s, hsm, ho⟩ := hs.linked.note_source x hx
      exact ho.source ▸ hunused s hsm

/-- What an ingest promises of its calls, on the rows `T₀` it starts from. -/
def IngestPromise (env : Env) (client : Option EmbeddingClient) (community : String) (T₀ : Tables)
    (c : Call) (T : Tables) : Prop :=
  ∃ source, (∀ s ∈ T₀.sourceMessages, s.sourceMessageId ≠ source) ∧
    IngestCall env client source community c T

theorem wp_ingest {service : DomainService} {message : InboundMessage} (hs : Sound env w)
    (hP : ∀ c T, IngestPromise env service.embeddingClient message.communityId w.rows c T →
      P c T) :
    wp (contract kind engine env P) (service.ingest message)
      (IngestOutcome env service message w) w := by
  have hunused : ∀ {j}, w.draws ≤ j → ∀ x ∈ w.rows.sourceMessages, x.sourceMessageId ≠ env.uuid j :=
    fun hj x hx => (hs.minted.source x hx).ne env.uuid_injective hj
  refine wp_now_bind (hP _ _ ⟨_, hunused le_rfl, trivial⟩) fun now w₁ hs₁ ht => ?_
  have hl := ht.later rfl nofun
  refine wp_uuid4_bind (hP _ _ ⟨_, hunused le_rfl, trivial⟩) fun j w₂ hs₂ ht₂ hj hj' => ?_
  have hl₂ := hl.trans (ht₂.later rfl nofun)
  have hun := hunused (hl.draws.trans hj)
  refine wp_imp (fun r w' ho => .later hl₂ ho) (wp_ingestRow hs₂ hj' ?_ fun c T hc => hP c T ⟨_, hun, hc⟩)
  rwa [hl₂.rows]

/-! ## Removals -/

/-- What a removal promises of its calls. -/
def DeleteCall (community : String) : Call → Tables → Prop
  | .repo (.getActiveNoteForExternalMessage ..), _ | .repo (.getActiveChunkForNote ..), _ => True
  | .repo (.markNote _ _ c), _ | .repo (.markChunk _ _ c), _ => c = community
  | _, _ => False

/-- The outcome of a removal that found the note. -/
def deleteOutcome : Option Note → DeleteOutcome
  | none => { deleted := false }
  | some note => { deleted := true, noteDate := some note.noteDate }

theorem wp_deleteNote (hs : Sound env w) (chat target community : String)
    (hP : ∀ c T, DeleteCall community c T → P c T) :
    wp (contract kind engine env P)
      (DomainService.deleteNoteForExternalMessage chat target community)
      (Completes env (removalCalls w.rows chat target community
        (w.rows.getActiveNoteForExternalMessage chat target community)) w
        (· = deleteOutcome (w.rows.getActiveNoteForExternalMessage chat target community))) w := by
  have hlook : MayLookUp P chat target community := fun _ _ => ⟨hP _ _ trivial, hP _ _ trivial⟩
  have hflip : MayFlip P .tombstoned community := fun _ _ => ⟨hP _ _ rfl, hP _ _ rfl⟩
  rw [← List.append_nil (removalCalls _ _ _ _ _)]
  refine completes_seq hs (wp_tombstone hs _ _ hlook hflip) fun note w₁ _ hnote _ => ?_
  rw [← hnote]
  cases note with
  | none => exact completes_pure rfl
  | some note => exact completes_pure rfl

end DiaryMemory
