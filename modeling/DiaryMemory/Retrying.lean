import DiaryMemory.Ingestion
import DiaryMemory.Reconciliation

/-!
# What a retry of failed embeddings does

A source row has at most one chunk, so each group of a retry is a single chunk
(`groupBySource_of_nodup`). `EmbedAgainOutcome` says where embedding it again may end,
`GroupOutcome` where its group may, `RetryOutcome` where the whole retry may : every group is
tried, and reported as it ended.
-/

namespace DiaryMemory

variable {kind : StoreKind} {engine : SearchEngine} {env : Env}
  {P : Call → Tables → Prop} {w : World (kind.backend engine).State}

/-! ## Groups -/

theorem addToGroup_of_notMem (chunk : EventChunk) :
    ∀ {groups : List (String × List EventChunk)}, chunk.sourceMessageId ∉ groups.map Prod.fst →
      addToGroup chunk groups = groups ++ [(chunk.sourceMessageId, [chunk])]
  | [], _ => rfl
  | (source, group) :: groups, h => by
    obtain ⟨hne, hrest⟩ := not_or.mp (fun hm => h (List.mem_cons.mpr hm))
    rw [addToGroup, if_neg (Ne.symm hne), addToGroup_of_notMem chunk hrest, List.cons_append]

theorem foldl_addToGroup : ∀ (chunks : List EventChunk) {groups : List (String × List EventChunk)},
    (groups.map Prod.fst ++ chunks.map EventChunk.sourceMessageId).Nodup →
      chunks.foldl (fun groups chunk => addToGroup chunk groups) groups =
        groups ++ chunks.map fun c => (c.sourceMessageId, [c])
  | [], groups, _ => (List.append_nil groups).symm
  | chunk :: chunks, groups, h => by
    have hnew : chunk.sourceMessageId ∉ groups.map Prod.fst := fun hm =>
      (List.nodup_append.mp h).2.2 _ hm _ List.mem_cons_self rfl
    rw [List.foldl_cons, addToGroup_of_notMem chunk hnew, foldl_addToGroup chunks, List.map_cons,
      List.append_assoc, List.singleton_append]
    simpa using h

/-- Chunks of distinct source rows are groups of their own. -/
theorem groupBySource_of_nodup {chunks : List EventChunk}
    (h : (chunks.map EventChunk.sourceMessageId).Nodup) :
    groupBySource chunks = chunks.map fun c => (c.sourceMessageId, [c]) :=
  foldl_addToGroup chunks h

namespace Tables

theorem Linked.nodup_failed_sources {T : Tables} (hT : T.Linked) (community : String)
    (limit : Option Int) :
    ((T.listFailedEventChunks community limit).map EventChunk.sourceMessageId).Nodup := by
  refine List.Nodup.sublist ((T.listFailedEventChunks_sublist community limit).map _) ?_
  have hnodup : (T.failedChunks community).Nodup :=
    (List.perm_insertionSort _ _).nodup_iff.mpr (T.eventChunks.rows_nodup.filter _)
  exact hnodup.map_on fun c hc d hd he =>
    hT.chunk_eq_of_source (mem_failedChunks.mp hc).1 (mem_failedChunks.mp hd).1 he

/-- The chunks of `T` are there, possibly with another embedding status. -/
def StatusOnly (T T' : Tables) : Prop :=
  ∀ c ∈ T.eventChunks, ∃ status, c.withStatus status ∈ T'.eventChunks

namespace StatusOnly

variable {T T' T'' : Tables}

theorem refl (T : Tables) : T.StatusOnly T := fun c hc => ⟨c.embeddingStatus, hc⟩

theorem trans (h : T.StatusOnly T') (h' : T'.StatusOnly T'') : T.StatusOnly T'' := by
  intro c hc
  obtain ⟨_, hc'⟩ := h c hc
  obtain ⟨status, hc''⟩ := h' _ hc'
  exact ⟨status, hc''⟩

theorem setStatus (T : Tables) (id : String) (status : EmbeddingStatus) :
    T.StatusOnly (T.setStatus id status) := by
  intro c hc
  by_cases h : c.chunkId = id
  · exact ⟨status, mem_setStatus.mpr ⟨c, hc, (if_pos h).symm⟩⟩
  · exact ⟨c.embeddingStatus, mem_setStatus.mpr ⟨c, hc, (if_neg h).symm⟩⟩

theorem effects {cs : List RepoCall} (hcs : ∀ c ∈ cs, ∀ T : Tables, T.StatusOnly (c.effect T))
    (T : Tables) :
    T.StatusOnly (RepoCall.effects cs T) := by
  induction cs generalizing T with
  | nil => exact .refl T
  | cons c cs ih =>
    have hrest := ih (fun c hc => hcs c (List.mem_cons_of_mem _ hc)) (c.effect T)
    exact (hcs c List.mem_cons_self T).trans hrest

end StatusOnly

end Tables

/-! ## Storing one record -/

/-- From call `n₀` on, no call of the store fails by itself. -/
def Env.ReliableFrom (env : Env) (n₀ : Nat) : Prop := ∀ n, n₀ ≤ n → ∀ c, env.storeFails n c = none

theorem Env.Reliable.reliableFrom (h : env.Reliable) (n₀ : Nat) : env.ReliableFrom n₀ :=
  fun n _ c => h n c

theorem Raised.refused_from {c : RepoCall} {e : Exn} {n₀ : Nat}
    {w' : World (kind.backend engine).State} (h : Raised env c w e w') (henv : env.ReliableFrom n₀)
    (hn : n₀ ≤ w.tick) : c.Refused kind w.rows := by
  obtain ⟨n, hle, hfails | ⟨-, hrefused⟩⟩ := h.why
  · rw [henv n (hn.trans hle)] at hfails
    cases hfails
  · exact hrefused

/-- A chunk and a model have one record : a second one is refused, a first one is stored and the
status set. -/
theorem Completes.stored {α : Type} {V : α → Prop} {record : EmbeddingRecord} {id : String}
    {status : EmbeddingStatus} {r : Except Exn α} {w' : World (kind.backend engine).State} {n₀ : Nat}
    (henv : env.ReliableFrom n₀) (hn : n₀ ≤ w.tick)
    (h : Completes env [.saveEmbeddingRecords [record], .setChunkEmbeddingStatus id status] w V r w') :
    (w.rows.embeddingRecords.find? record.chunkModel).isSome = true ∧ isRaise r = true ∧
        w'.rows = w.rows ∨
      (w.rows.embeddingRecords.find? record.chunkModel).isSome = false ∧ isRaise r = false ∧
        Path env w [.saveEmbeddingRecords [record], .setChunkEmbeddingStatus id status] w' := by
  obtain ⟨e, w₁, rfl, hl, hr⟩ | ⟨w₁, _, w₂, hl, hsaved, hrest⟩ := h.uncons
  · have hrefused := hr.refused_from henv (hn.trans hl.log.length_le)
    rw [hl.rows] at hrefused
    obtain ⟨x, hx, hfound⟩ := hrefused
    rw [List.mem_singleton.mp hx] at hfound
    exact .inl ⟨hfound, rfl, hr.rows.trans hl.rows⟩
  · have hlog := hl.log.trans hsaved.log
    obtain ⟨e, w₃, rfl, hl₃, hr⟩ | ⟨w₃, _, w₄, hl₃, hset, hrest⟩ := hrest.uncons
    · exact (hr.refused_from henv (hn.trans (hlog.trans hl₃.log).length_le)).elim
    · obtain ⟨a, rfl, -, hl₄⟩ := hrest.of_nil
      have hnone : (w.rows.embeddingRecords.find? record.chunkModel).isSome = false := by
        refine Bool.eq_false_iff.mpr fun hfound => hsaved.accepted ⟨record, by simp, ?_⟩
        rwa [hl.rows]
      refine .inr ⟨hnone, rfl, ?_⟩
      exact .later (.call (.later (.call (.of_later hl) hsaved) hl₃) hset) hl₄

/-! ## Outcomes -/

/-- Where embedding a chunk again may end, from the moment the provider gave its answer. -/
inductive EmbedAgainOutcome (env : Env) (client : EmbeddingClient) (chunk : EventChunk)
    (answer : Except Exn (List Vec)) (w : World (kind.backend engine).State) :
    Except Exn Unit → World (kind.backend engine).State → Prop
  /-- The provider raised, or answered with other than one vector. -/
  | unanswered {e : Exn} {w'} (hanswer : ∀ vector, answer ≠ .ok [vector]) (hl : Later w w') :
      EmbedAgainOutcome env client chunk answer w (.error e) w'
  /-- The record is stored, then the chunk ready. -/
  | stored {record : EmbeddingRecord} {r : Except Exn Unit} {w'}
      (hanswer : answer = .ok [record.embedding])
      (hkey : record.chunkModel = (chunk.chunkId, client.modelName))
      (hc : Completes env [.saveEmbeddingRecords [record],
        .setChunkEmbeddingStatus chunk.chunkId .ready] w (fun _ => True) r w') :
      EmbedAgainOutcome env client chunk answer w r w'

/-- Where the retry of the group of one chunk may end; the dead letter of one that failed is kept
or lost. -/
inductive GroupOutcome (env : Env) (client : EmbeddingClient) (chunk : EventChunk)
    (w : World (kind.backend engine).State) :
    RetryGroupOutcome → World (kind.backend engine).State → Prop
  | succeeded {w₁ w'} (ht : Told (.embed [chunk]) w w₁)
      (ho : EmbedAgainOutcome env client chunk (env.embed w.tick [chunk.chunkText]) w₁ (.ok ()) w') :
      GroupOutcome env client chunk w
        { sourceMessageId := chunk.sourceMessageId, chunkIds := [chunk.chunkId]
          succeeded := true } w'
  | failed {exc : Exn} {d : IndexingDeadLetter} {group : RetryGroupOutcome} {w₁ w₂ w₃ w'}
      (ht : Told (.embed [chunk]) w w₁)
      (ho : EmbedAgainOutcome env client chunk (env.embed w.tick [chunk.chunkText]) w₁ (.error exc) w₂)
      (hl : Later w₂ w₃) (hdead : Returned env (.saveIndexingDeadLetter d) w₃ () w' ∨
        ∃ e, Raised env (.saveIndexingDeadLetter d) w₃ e w')
      (hids : group.chunkIds = [chunk.chunkId]) (hfailed : group.succeeded = false) :
      GroupOutcome env client chunk w group w'

/-- The groups of the chunks ended one after the other. -/
inductive GroupsOutcome (env : Env) (client : EmbeddingClient) :
    List EventChunk → World (kind.backend engine).State → List RetryGroupOutcome →
      World (kind.backend engine).State → Prop
  | nil {v : World (kind.backend engine).State} : GroupsOutcome env client [] v [] v
  | cons {chunk : EventChunk} {chunks : List EventChunk} {group : RetryGroupOutcome}
      {groups : List RetryGroupOutcome} {v v₁ v' : World (kind.backend engine).State}
      (ho : GroupOutcome env client chunk v group v₁)
      (hrest : GroupsOutcome env client chunks v₁ groups v') :
      GroupsOutcome env client (chunk :: chunks) v (group :: groups) v'

/-- Where a retry may end. -/
inductive RetryOutcome (env : Env) (service : ReconciliationService) (community : String)
    (limit : Option Int) (w : World (kind.backend engine).State) :
    Except Exn RetryOutcomeReport → World (kind.backend engine).State → Prop
  | unavailable {e : Exn} (hclient : service.embeddingClient = none) :
      RetryOutcome env service community limit w (.error e) w
  | unlisted {e : Exn} {w'} (hr : Raised env (.listFailedEventChunks community limit) w e w') :
      RetryOutcome env service community limit w (.error e) w'
  | retried {client : EmbeddingClient} {groups : List RetryGroupOutcome} {w₁ w'}
      (hclient : service.embeddingClient = some client)
      (hp : Path env w [.listFailedEventChunks community limit] w₁)
      (ho : GroupsOutcome env client (w.rows.listFailedEventChunks community limit) w₁ groups w') :
      RetryOutcome env service community limit w (.ok ⟨community, groups⟩) w'

section Outcomes

variable {client : EmbeddingClient} {chunk : EventChunk} {answer : Except Exn (List Vec)}
  {r : Except Exn Unit} {group : RetryGroupOutcome} {w' : World (kind.backend engine).State}

/-- At most the embedding status of the chunk changes. -/
theorem EmbedAgainOutcome.statusOnly (h : EmbedAgainOutcome env client chunk answer w r w') :
    w.rows.StatusOnly w'.rows := by
  cases h with
  | unanswered _ hl => exact hl.rows ▸ .refl _
  | stored _ _ hc =>
    obtain ⟨done, rest, hsplit, hrows⟩ := hc.rows
    rw [hrows]
    refine .effects (fun c hc T => ?_) w.rows
    have hmem := List.mem_append_left rest hc
    rw [← hsplit, List.mem_pair] at hmem
    rcases hmem with rfl | rfl
    · exact .refl T
    · exact .setStatus T _ _

theorem GroupOutcome.statusOnly (h : GroupOutcome env client chunk w group w') :
    w.rows.StatusOnly w'.rows := by
  cases h with
  | succeeded ht ho => exact ht.rows ▸ ho.statusOnly
  | failed ht ho hl hdead =>
    rw [← ht.rows]
    refine ho.statusOnly.trans ?_
    rw [← hl.rows]
    rcases hdead with hr | ⟨_, hr⟩
    · rw [hr.rows]
      exact .refl _
    · rw [hr.rows]
      exact .refl _

theorem EmbedAgainOutcome.log (h : EmbedAgainOutcome env client chunk answer w r w') :
    w.log <+: w'.log := by
  cases h with
  | unanswered _ hl => exact hl.log
  | stored _ _ hc => exact hc.log

theorem GroupOutcome.log (h : GroupOutcome env client chunk w group w') : w.log <+: w'.log := by
  cases h with
  | succeeded ht ho => exact ht.log.trans ho.log
  | failed ht ho hl hdead =>
    refine ((ht.log.trans ho.log).trans hl.log).trans ?_
    rcases hdead with hr | ⟨_, hr⟩
    · exact hr.log
    · exact hr.log

end Outcomes

/-! ## Promises -/

/-- The chunk was listed, and is there in the lifecycle state it was listed in. -/
def Listed (T₀ : Tables) (community : String) (limit : Option Int) (c : EventChunk) (T : Tables) :
    Prop :=
  c ∈ T₀.listFailedEventChunks community limit ∧ ∃ status, c.withStatus status ∈ T.eventChunks

/-- What a retry promises of its calls, on the rows `T₀` it starts from. -/
def RetryCall (env : Env) (client : Option EmbeddingClient) (community : String)
    (limit : Option Int) (T₀ : Tables) : Call → Tables → Prop
  | .repo (.listFailedEventChunks ..), _ | .sys .uuid4, _ | .sys .now, _ => True
  | .repo (.saveIndexingDeadLetter d), T => d.communityId = community ∧ T.OwnsChunks d
  | .repo (.saveEmbeddingRecords rs), T => ∀ r ∈ rs, r.communityId = community ∧
    T.EmbedsAs env client r ∧ ∃ c, Listed T₀ community limit c T ∧ c.chunkId = r.chunkId
  | .repo (.setChunkEmbeddingStatus id status), T => status = .ready ∧ T.HasRecord client id ∧
    ∃ c, Listed T₀ community limit c T ∧ c.chunkId = id
  | .sys (.embed cs), T => client.isSome ∧ ∀ c ∈ cs, Listed T₀ community limit c T
  | _, _ => False

section Retrying

open ReconciliationService

variable {T₀ : Tables} {community : String} {limit : Option Int} {client : EmbeddingClient}
  {now : DateTime} {chunk : EventChunk}

/-- A listed chunk stays listed where only its status changes. -/
theorem Listed.later {T T' : Tables} (h : Listed T₀ community limit chunk T)
    (hT : T.StatusOnly T') : Listed T₀ community limit chunk T' := by
  obtain ⟨hmem, status, hc⟩ := h
  obtain ⟨status', hc'⟩ := hT (chunk.withStatus status) hc
  exact ⟨hmem, status', hc'⟩

/-- A listed chunk is embedded again. -/
theorem wp_embedGroup (hP : ∀ c T, RetryCall env (some client) community limit T₀ c T → P c T)
    (hlisted : Listed T₀ community limit chunk w.rows) (hcommunity : chunk.communityId = community) :
    wp (contract kind engine env P)
      (embedGroup client chunk.sourceMessageId community now [chunk])
      (fun r w' => ∃ w₁, Told (.embed [chunk]) w w₁ ∧
        EmbedAgainOutcome env client chunk (env.embed w.tick [chunk.chunkText]) w₁ r w') w := by
  unfold embedGroup
  rw [wp_bind]
  refine wp_sys (hP _ _ ⟨rfl, fun c hc => ?_⟩) fun r w₁ hs₁ ht hanswer => ?_
  · rw [List.mem_singleton.mp hc]
    exact hlisted
  rw [← ht.rows] at hlisted
  have hr : env.embed w.tick [chunk.chunkText] = r := hanswer.symm
  rw [hr]
  cases r with
  | error e => exact ⟨w₁, ht, .unanswered nofun (.refl w₁)⟩
  | ok vectors =>
    refine wp_imp (fun _ _ ho => ⟨w₁, ht, ho⟩) ?_
    rw [wp_bind]
    refine wp_buildRecords_singleton vectors (fun T => hP _ T trivial)
      (fun e w' hl hlength => .unanswered (fun vector he => ?_) hl) fun vector j w₂ hone hs₂ hl hj hj' => ?_
    · cases he
      exact hlength rfl
    subst hone
    obtain ⟨hlist, status, hc⟩ := hlisted
    have hrecord : RecordOf (chunk.withStatus status) ⟨env.uuid j, chunk.chunkId,
        chunk.sourceMessageId, community, client.modelName, client.dimension, vector, now⟩ :=
      ⟨rfl, rfl, hcommunity⟩
    have hc₂ : chunk.withStatus status ∈ w₂.rows.eventChunks := hl.rows ▸ hc
    refine wp_imp (fun _ _ hc => .stored rfl rfl (.later hl hc))
      (completes_repo_bind ⟨⟨le_rfl, fun r hr => ?_⟩, fun id hid => ?_⟩ (hP _ _ fun r hr => ?_)
        fun _ w₃ hs₃ hr => ?_)
    · rw [List.mem_singleton.mp hr, hl.rows]
      exact ⟨fun x hx => (hs₁.minted.record x hx).ne env.uuid_injective hj, _, hc, hrecord⟩
    · rw [List.mem_singleton.mp hid]
      exact ⟨j, hj', rfl⟩
    · rw [List.mem_singleton.mp hr]
      exact ⟨rfl, ⟨⟨client, rfl, rfl⟩, _, hc₂, hrecord, w.tick, hanswer.symm⟩,
        chunk, ⟨hlist, status, hc₂⟩, rfl⟩
    · have hc₃ : chunk.withStatus status ∈ w₃.rows.eventChunks := by
        rw [hr.rows]
        exact hc₂
      have hstored : w₃.rows.HasRecord (some client) chunk.chunkId := by
        rw [hr.rows]
        exact ⟨client, rfl, _, Table.mem_put_self, rfl, rfl⟩
      exact wp_setStatuses_singleton .ready ⟨_, hc₃, rfl⟩
        (hP _ _ ⟨rfl, hstored, chunk, ⟨hlist, status, hc₃⟩, rfl⟩)

theorem wp_retryGroup (hs : Sound env w)
    (hP : ∀ c T, RetryCall env (some client) community limit T₀ c T → P c T)
    (hlisted : Listed T₀ community limit chunk w.rows) (hcommunity : chunk.communityId = community) :
    wp (contract kind engine env P)
      (retryGroup client community now chunk.sourceMessageId [chunk])
      (fun r w' => ∃ group, r = .ok group ∧ GroupOutcome env client chunk w group w') w := by
  unfold retryGroup
  dsimp only
  rw [wp_bind]
  refine (wp_capture _ _ w).mpr (wp_imp (fun r w₁ h => ?_) (wp_sound hs (wp_embedGroup hP hlisted
    hcommunity)))
  obtain ⟨hs₁, w₀, ht₀, ho⟩ := h
  cases r with
  | ok => exact ⟨_, rfl, .succeeded ht₀ ho⟩
  | error exc =>
    refine wp_uuid4_bind (hP _ _ trivial) fun j w₂ hs₂ ht hj hj' => ?_
    rw [wp_bind]
    obtain ⟨-, status, hc⟩ := hlisted.later (ht₀.rows ▸ ho.statusOnly)
    have hsource : ∃ s ∈ w₂.rows.sourceMessages, s.sourceMessageId = chunk.sourceMessageId := by
      obtain ⟨n, hn, ho⟩ := hs₁.linked.chunk_note _ hc
      obtain ⟨s, hsm, hno⟩ := hs₁.linked.note_source n hn
      rw [ht.rows]
      exact ⟨s, hsm, hno.source.trans ho.source⟩
    have hfresh : ∀ x ∈ w₂.rows.indexingDeadLetters, x.deadLetterId ≠ env.uuid j := by
      rw [ht.rows]
      exact fun x hx => (hs₁.minted.deadLetter x hx).ne env.uuid_injective hj
    have howns : ∀ d : IndexingDeadLetter, d.chunkIds = [chunk.chunkId] →
        d.sourceMessageId = chunk.sourceMessageId → w₂.rows.OwnsChunks d := by
      intro d hids hsource id hid
      rw [hids, List.mem_singleton] at hid
      rw [ht.rows]
      exact ⟨_, hc, hid.symm, hsource.symm⟩
    have hl : Later w₁ w₂ := ht.later rfl nofun
    refine (wp_capture _ _ w₂).mpr (wp_repo ⟨⟨hfresh, hsource⟩, fun id hid => ?_⟩
      (hP _ _ ⟨rfl, howns _ rfl rfl⟩)
      (fun e w₃ _ hr => ⟨_, rfl, .failed ht₀ ho hl (.inr ⟨e, hr⟩) rfl rfl⟩)
      fun _ w₃ _ hr => ⟨_, rfl, .failed ht₀ ho hl (.inl hr) rfl rfl⟩)
    rw [List.mem_singleton.mp hid]
    exact ⟨j, hj', rfl⟩

theorem wp_retryGroups (hP : ∀ c T, RetryCall env (some client) community limit T₀ c T → P c T) :
    ∀ {chunks : List EventChunk} {w : World (kind.backend engine).State}, Sound env w →
      (∀ c ∈ chunks, Listed T₀ community limit c w.rows ∧ c.communityId = community) →
      wp (contract kind engine env P)
        (retryGroups client community now (chunks.map fun c => (c.sourceMessageId, [c])))
        (fun r w' => ∃ groups, r = .ok groups ∧ GroupsOutcome env client chunks w groups w') w
  | [], w, _, _ => ⟨[], rfl, .nil⟩
  | chunk :: chunks, w, hs, hlisted => by
    obtain ⟨hl, hc⟩ := hlisted chunk List.mem_cons_self
    refine wp_seq_ok hs (wp_retryGroup hs hP hl hc) fun group w₁ hs₁ ho => ?_
    refine wp_seq_ok hs₁ (wp_retryGroups hP hs₁ fun c hcm => ?_) fun groups w₂ _ hrest =>
      ⟨_, rfl, .cons ho hrest⟩
    obtain ⟨hlist, hcc⟩ := hlisted c (List.mem_cons_of_mem _ hcm)
    exact ⟨hlist.later ho.statusOnly, hcc⟩

theorem wp_retryFailedChunks (service : ReconciliationService)
    (hP : ∀ c T, RetryCall env service.embeddingClient community limit w.rows c T → P c T) :
    wp (contract kind engine env P) (service.retryFailedChunks community limit)
      (RetryOutcome env service community limit w) w := by
  unfold retryFailedChunks
  cases hclient : service.embeddingClient with
  | none => exact .unavailable hclient
  | some client =>
    rw [hclient] at hP
    refine wp_repo_bind ⟨trivial, nofun⟩ (hP _ _ trivial) (fun e w₁ _ hr => .unlisted hr)
      fun chunks w₁ hs₁ hr => ?_
    have hchunks : chunks = w.rows.listFailedEventChunks community limit := hr.value
    have hrows : w₁.rows = w.rows := hr.rows
    refine wp_now_bind (hP _ _ trivial) fun now w₂ hs₂ ht => ?_
    have hrows₂ : w₂.rows = w.rows := ht.rows.trans hrows
    rw [hchunks, groupBySource_of_nodup (hrows ▸ hs₁.linked.nodup_failed_sources community limit)]
    refine wp_seq_ok hs₂ (wp_retryGroups hP hs₂ fun c hc => ?_) fun groups w₃ _ ho =>
      .retried hclient (.later (.single hr) (ht.later rfl nofun)) ho
    obtain ⟨hcm, hcc, -⟩ := Tables.mem_failedChunks.mp
      ((w.rows.listFailedEventChunks_sublist community limit).subset hc)
    rw [hrows₂]
    exact ⟨⟨hc, c.embeddingStatus, hcm⟩, hcc⟩

end Retrying

end DiaryMemory
