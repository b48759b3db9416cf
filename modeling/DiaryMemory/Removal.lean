import DiaryMemory.Scope

/-!
# Hard deletes on the SQL stores

A hard delete removes a source row and what is derived from it, but for the dead letters
that name the row : no statement deletes them, and the last one of the transaction fails on
their reference. `hardDelete_erases_iff` says that on the rows of any run this is the only
way for it to fail on a source row of its community.
-/

namespace DiaryMemory

namespace Tables

variable {T T' : Tables}

/-- The dead letters name chunks of their source row. -/
def DeadLettersOwn (T : Tables) : Prop := ∀ d ∈ T.indexingDeadLetters, T.OwnsChunks d

theorem OwnsChunks.of_chunks {d : IndexingDeadLetter} (h : T.OwnsChunks d)
    (hchunks : ∀ c ∈ T.eventChunks, c.sourceMessageId = d.sourceMessageId →
      ∃ c' ∈ T'.eventChunks, c.Same c') : T'.OwnsChunks d := by
  intro id hid
  obtain ⟨c, hc, rfl, hsource⟩ := h id hid
  obtain ⟨c', hc', he⟩ := hchunks c hc hsource
  exact ⟨c', hc', he.chunkId, he.sourceMessageId.trans hsource⟩

theorem DeadLettersOwn.of_chunks (h : T.DeadLettersOwn)
    (hdead : T'.indexingDeadLetters = T.indexingDeadLetters)
    (hchunks : ∀ c ∈ T.eventChunks, ∃ c' ∈ T'.eventChunks, c.Same c') : T'.DeadLettersOwn :=
  fun d hd => (h d (hdead ▸ hd)).of_chunks fun c hc _ => hchunks c hc

theorem deadLettersOwn_empty : ({} : Tables).DeadLettersOwn :=
  fun _ h => absurd h Table.not_mem_empty

/-- What a call that a SQL store serves keeps : it refuses to remove a source row that a
dead letter names. -/
theorem DeadLettersOwn.scoped (h : T.DeadLettersOwn) {dialect : SqlDialect} {c : RepoCall}
    {env : Env} {client : Option EmbeddingClient} {community : String} (hg : c.Guard T)
    (haccepted : ¬ c.Refused (.sql dialect) T) (hscoped : c.Scoped env client community T) :
    (c.effect T).DeadLettersOwn := by
  have hkept : ∀ c ∈ T.eventChunks, ∃ c' ∈ T.eventChunks, c.Same c' := fun c hc => ⟨c, hc, .refl c⟩
  cases c with
  | getOrCreateSourceMessage s =>
    rw [RepoCall.effect]
    split
    · exact h
    · exact h.of_chunks rfl hkept
  | saveEventChunks cs =>
    exact h.of_chunks rfl fun x hx => ⟨x, hg.keeps_chunk hx, .refl x⟩
  | setChunkEmbeddingStatus id status => exact h.of_chunks rfl (sameRows_setStatus T id status).chunk_to
  | markChunk state id => exact h.of_chunks rfl (sameRows_markChunk T state id).chunk_to
  | hardDeleteSourceMessage id =>
    refine fun d hd => (h d hd).of_chunks fun c hc hsource => ⟨c, ?_, .refl c⟩
    refine Table.mem_discard.mpr ⟨hc, decide_eq_false fun he => haccepted ?_⟩
    exact .inr (.inr ⟨by simp, d, hd, hsource.symm.trans he⟩)
  | saveIndexingDeadLetter d => exact Table.forall_put h hscoped.2
  | _ => exact h.of_chunks rfl hkept

/-- Source row `id` went with every row that refers to it or to one of its chunks, all other
rows are there, and the tally counts the rows that went. -/
structure Erased (T : Tables) (id : String) (tally : HardDeleteOutcome) (T' : Tables) : Prop where
  sources : T'.sourceMessages.rows = T.sourceMessages.rows.filter fun s => s.sourceMessageId ≠ id
  notes : T'.notes.rows = T.notes.rows.filter fun n => n.sourceMessageId ≠ id
  chunks : T'.eventChunks.rows = T.eventChunks.rows.filter fun c => c.sourceMessageId ≠ id
  records : T'.embeddingRecords.rows = T.embeddingRecords.rows.filter fun r =>
    ¬ (r.sourceMessageId = id ∨ T.chunkIsOf id r.chunkId)
  hits : T'.retrievalHits.rows = T.retrievalHits.rows.filter fun h => ¬ T.chunkIsOf id h.chunkId
  deadLetters : T'.indexingDeadLetters.rows = T.indexingDeadLetters.rows.filter fun d =>
    ¬ (d.sourceMessageId = id ∨ ∃ c ∈ d.chunkIds, T.chunkIsOf id c)
  rest : T' = { T' with
    queries := T.queries, answerTraces := T.answerTraces
    chatRouteDecisions := T.chatRouteDecisions, chatQueryRewrites := T.chatQueryRewrites
    chatKnowledgeSearches := T.chatKnowledgeSearches }
  tally_sources : T.sourceMessages.rows.length = T'.sourceMessages.rows.length + tally.sourceMessages
  tally_notes : T.notes.rows.length = T'.notes.rows.length + tally.notes
  tally_chunks : T.eventChunks.rows.length = T'.eventChunks.rows.length + tally.eventChunks
  tally_records :
    T.embeddingRecords.rows.length = T'.embeddingRecords.rows.length + tally.embeddingRecords
  tally_hits : T.retrievalHits.rows.length = T'.retrievalHits.rows.length + tally.retrievalHits

/-- A removal erases a source row that no dead letter names. -/
theorem erased_removeSource (hT : T.Linked) (hd : T.DeadLettersOwn) {id : String}
    (hnone : ∀ d ∈ T.indexingDeadLetters, d.sourceMessageId ≠ id) :
    T.Erased id (T.removalTally id) (T.removeSource id) where
  sources := List.filter_congr fun s _ => by simp
  notes := List.filter_congr fun n _ => by simp
  chunks := List.filter_congr fun c _ => by simp
  records := by
    refine List.filter_congr fun r hr => ?_
    have hof : T.chunkIsOf id r.chunkId = true → r.sourceMessageId = id := fun he => by
      obtain ⟨c, hc, hid, hsource⟩ := chunkIsOf_iff.mp he
      obtain ⟨c', hc', ho⟩ := hT.record_chunk r hr
      rw [← ho.source, Table.eq_of_key hc' hc (ho.chunk.trans hid.symm), hsource]
    by_cases he : r.sourceMessageId = id
    · simp [he]
    · simp [he, mt hof he]
  hits := List.filter_congr fun h _ => by simp
  deadLetters := by
    refine (List.filter_eq_self.mpr fun d hdm => ?_).symm
    have hne := hnone d hdm
    have hnot : ∀ c ∈ d.chunkIds, T.chunkIsOf id c = false := by
      intro c hc
      refine Bool.eq_false_iff.mpr fun he => hne ?_
      obtain ⟨x, hx, hxid, hsource⟩ := chunkIsOf_iff.mp he
      obtain ⟨y, hy, hyid, hown⟩ := hd d hdm c hc
      rw [← hown, Table.eq_of_key hy hx (hyid.trans hxid.symm), hsource]
    simpa [hne] using hnot
  rest := rfl
  tally_sources := Table.length_discard _ _
  tally_notes := Table.length_discard _ _
  tally_chunks := Table.length_discard _ _
  tally_records := Table.length_discard _ _
  tally_hits := Table.length_discard _ _

/-- The hard delete of a source row by its community succeeds and erases it. -/
def Erases (dialect : SqlDialect) (engine : SearchEngine) (T : Tables) (s : SourceMessage) : Prop :=
  ∃ tally T', SqlDomainStore.handle dialect engine
    (.hardDeleteSourceMessage s.sourceMessageId s.communityId) T = (.ok tally, T') ∧
    T.Erased s.sourceMessageId tally T'

end Tables

/-- On the rows that any run leaves in a SQL store, the hard delete of a source row by its
community erases it exactly when no dead letter names it, and that of a row which is unknown
or of another community raises and changes nothing. -/
theorem hardDelete_erases_iff (dialect : SqlDialect) (engine : SearchEngine) (env : Env)
    (ops : List Operation) :
    let T := (runAll ((StoreKind.sql dialect).backend engine) env
      (World.initial (.sql dialect) engine) ops).rows
    (∀ s ∈ T.sourceMessages, T.Erases dialect engine s ↔
      s.communityId ≠ "" ∧ ∀ d ∈ T.indexingDeadLetters, d.sourceMessageId ≠ s.sourceMessageId) ∧
    ∀ id community, T.ownedSource id community = none →
      ∃ e, SqlDomainStore.handle dialect engine (.hardDeleteSourceMessage id community) T =
        (.error e, T) := by
  intro T
  have hs : Sound env (runAll ((StoreKind.sql dialect).backend engine) env
      (World.initial (.sql dialect) engine) ops) := sound_run env ops
  have hown : T.DeadLettersOwn := runAll_scoped Tables.deadLettersOwn_empty
    fun _ _ _ _ _ hg ha hscoped h => h.scoped hg ha hscoped
  have hrefs : T.References := hs.consistent
  refine ⟨fun s hsm => ?_, fun id community hnone => ?_⟩
  · by_cases hc : s.communityId = ""
    · refine iff_of_false ?_ fun h => h.1 hc
      rintro ⟨tally, T', he, -⟩
      rw [SqlDomainStore.handle, SqlDomainStore.hardDeleteSourceMessage, requireCommunity_bind,
        if_pos hc] at he
      cases (Prod.mk.inj he).1
    · rw [Tables.Erases, SqlDomainStore.handle,
        SqlDomainStore.hardDeleteSourceMessage_eq hs.linked hrefs.deadLettersNamed hsm hc]
      by_cases hd : ∀ d ∈ T.indexingDeadLetters.rows, d.sourceMessageId ≠ s.sourceMessageId
      · rw [if_pos hd]
        exact iff_of_true ⟨_, _, rfl, Tables.erased_removeSource hs.linked hown hd⟩ ⟨hc, hd⟩
      · rw [if_neg hd]
        refine iff_of_false ?_ fun h => hd h.2
        rintro ⟨tally, T', he, -⟩
        cases (Prod.mk.inj he).1
  · rw [SqlDomainStore.handle, SqlDomainStore.hardDeleteSourceMessage, requireCommunity_bind]
    by_cases hc : community = ""
    · rw [if_pos hc]
      exact ⟨_, rfl⟩
    · rw [if_neg hc, hnone]
      exact ⟨_, rfl⟩

/-- After an ingest whose embedding call failed, no hard delete of its source row succeeds : the
dead letter of the failed call still names it. -/
theorem not_erases_after_failed_embedding :
    let env : Env := { Env.steady with embed := fun _ _ => .error (.runtimeError "unreachable") }
    let B := (StoreKind.sql .sqlite).backend .plain
    let T := (runAll B env (World.initial (.sql .sqlite) .plain)
      [.ingest ⟨some ⟨"model", 1⟩⟩ (.plain .note "2026-05-09\nwalk" 0)]).rows
    ∃ s ∈ T.sourceMessages, s.communityId = "community" ∧ ¬ T.Erases .sqlite .plain s := by
  intro env B T
  have hraise : ∃ s ∈ T.sourceMessages.rows, s.communityId = "community" ∧
      isRaise (SqlDomainStore.handle .sqlite .plain
        (.hardDeleteSourceMessage s.sourceMessageId s.communityId) T).1 = true := by
    decide +kernel
  obtain ⟨s, hs, hc, hr⟩ := hraise
  refine ⟨s, hs, hc, ?_⟩
  rintro ⟨tally, T', he, -⟩
  rw [he] at hr
  cases hr

end DiaryMemory
