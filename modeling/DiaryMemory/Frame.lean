import DiaryMemory.Scope

/-!
# The rows of another community

`Tables.rowsOf` are the rows of one community : those that carry its identifier, and the
retrieval hits and answer traces of its queries. A request made for one community leaves the
rows of any other as they are, whatever identifiers it is given (`foreign_rows_run`). A
write that names a chunk or a source row only is of the community all the same, for what
is derived from a row is of its community (`Linked`), and a chunk is hit by queries of its
own community only (`Tables.HitsOwned`).
-/

namespace DiaryMemory

/-- The rows of one community, in the order of the store. -/
@[ext]
structure CommunityRows where
  sourceMessages : List SourceMessage
  notes : List Note
  eventChunks : List EventChunk
  embeddingRecords : List EmbeddingRecord
  queries : List Query
  retrievalHits : List RetrievalHit
  answerTraces : List AnswerTrace
  chatRouteDecisions : List ChatRouteDecision
  chatQueryRewrites : List ChatQueryRewrite
  chatKnowledgeSearches : List ChatKnowledgeSearch
  indexingDeadLetters : List IndexingDeadLetter

namespace Tables

/-- Whether `id` is a query of the community. -/
def queryIsOf (T : Tables) (community id : String) : Bool :=
  (T.queries.find? id).any fun q => q.communityId = community

def rowsOf (T : Tables) (community : String) : CommunityRows where
  sourceMessages := T.sourceMessages.rows.filter fun s => s.communityId = community
  notes := T.notes.rows.filter fun n => n.communityId = community
  eventChunks := T.eventChunks.rows.filter fun c => c.communityId = community
  embeddingRecords := T.embeddingRecords.rows.filter fun r => r.communityId = community
  queries := T.queries.rows.filter fun q => q.communityId = community
  retrievalHits := T.retrievalHits.rows.filter fun h => T.queryIsOf community h.queryId
  answerTraces := T.answerTraces.rows.filter fun t => T.queryIsOf community t.queryId
  chatRouteDecisions := T.chatRouteDecisions.rows.filter fun d => d.communityId = community
  chatQueryRewrites := T.chatQueryRewrites.rows.filter fun r => r.communityId = community
  chatKnowledgeSearches := T.chatKnowledgeSearches.rows.filter fun s => s.communityId = community
  indexingDeadLetters := T.indexingDeadLetters.rows.filter fun d => d.communityId = community

/-- A chunk is hit by queries of its community only. -/
def HitsOwned (T : Tables) : Prop :=
  ∀ h ∈ T.retrievalHits, ∃ c ∈ T.eventChunks, c.chunkId = h.chunkId ∧ T.QueryOf c.communityId h.queryId

variable {T T' : Tables} {community foreign : String}

theorem queryIsOf_of_ne {id : String} (h : T.QueryOf community id) (hne : community ≠ foreign) :
    T.queryIsOf foreign id = false := by
  obtain ⟨q, hq, rfl, rfl⟩ := h
  rw [queryIsOf, Table.find?_key hq]
  simpa using hne

/-! ## Hits and their chunks -/

theorem hitsOwned_empty : ({} : Tables).HitsOwned := fun _ h => absurd h Table.not_mem_empty

theorem HitsOwned.of_same (h : T.HitsOwned) (hhits : ∀ x ∈ T'.retrievalHits, x ∈ T.retrievalHits)
    (hqueries : ∀ q ∈ T.queries, q ∈ T'.queries)
    (hchunks : ∀ c ∈ T.eventChunks, ∃ c' ∈ T'.eventChunks, c.Same c') : T'.HitsOwned := by
  intro x hx
  obtain ⟨c, hc, hid, q, hq, hqid, hqc⟩ := h x (hhits x hx)
  obtain ⟨c', hc', he⟩ := hchunks c hc
  exact ⟨c', hc', he.chunkId.trans hid, q, hqueries q hq, hqid, hqc.trans he.communityId.symm⟩

theorem HitsOwned.effect (h : T.HitsOwned) {c : RepoCall} {env : Env}
    {client : Option EmbeddingClient} (hg : c.Guard T)
    (hscoped : c.Scoped env client community T) : (c.effect T).HitsOwned := by
  have hkept : ∀ c ∈ T.eventChunks, ∃ c' ∈ T.eventChunks, c.Same c' := fun c hc => ⟨c, hc, .refl c⟩
  cases c with
  | getOrCreateSourceMessage s =>
    rw [RepoCall.effect]
    split
    · exact h
    · exact h.of_same (fun _ hx => hx) (fun _ hq => hq) hkept
  | saveEventChunks cs =>
    exact h.of_same (fun _ hx => hx) (fun _ hq => hq) fun x hx => ⟨x, hg.keeps_chunk hx, .refl x⟩
  | setChunkEmbeddingStatus id status =>
    exact h.of_same (fun _ hx => hx) (fun _ hq => hq) (sameRows_setStatus T id status).chunk_to
  | markChunk state id =>
    exact h.of_same (fun _ hx => hx) (fun _ hq => hq) (sameRows_markChunk T state id).chunk_to
  | hardDeleteSourceMessage id =>
    intro x hx
    obtain ⟨hx, hne⟩ := Table.mem_discard.mp hx
    obtain ⟨c, hc, hid, hq⟩ := h x hx
    refine ⟨c, Table.mem_discard.mpr ⟨hc, decide_eq_false fun he => ?_⟩, hid, hq⟩
    rw [chunkIsOf_iff.mpr ⟨c, hc, hid, he⟩] at hne
    cases hne
  | saveQuery q =>
    exact h.of_same (fun _ hx => hx) (fun x hx => Table.mem_put_of_ne hx (hg x hx)) hkept
  | saveRetrievalHits hs =>
    refine Table.forall_putAll h fun x hx => ?_
    obtain ⟨hq, c, hc, hid, hcc⟩ := hscoped x hx
    exact ⟨c, hc, hid, hcc.symm ▸ hq⟩
  | _ => exact h.of_same (fun _ hx => hx) (fun _ hq => hq) hkept

/-! ## One call -/

/-- A new query of another community is none of this one. -/
theorem queryIsOf_putQuery {q : Query} (hfresh : ∀ x ∈ T.queries, x.queryId ≠ q.queryId)
    (hne : q.communityId ≠ foreign) (id : String) :
    (T.putQuery q).queryIsOf foreign id = T.queryIsOf foreign id := by
  unfold queryIsOf
  rw [show (T.putQuery q).queries = T.queries.put q from rfl, Table.find?_put]
  by_cases he : q.queryId = id
  · have hnone : T.queries.find? id = none :=
      Table.find?_eq_none_iff.mpr fun x hx => he ▸ hfresh x hx
    rw [if_pos he, hnone]
    simpa using hne
  · rw [if_neg he]

/-- The rows derived from a source row are of its community. -/
theorem rowsOf_removeSource {s : SourceMessage} (hT : T.Linked) (hhits : T.HitsOwned)
    (hs : s ∈ T.sourceMessages) (hne : s.communityId ≠ foreign) :
    (T.removeSource s.sourceMessageId).rowsOf foreign = T.rowsOf foreign := by
  have hnote : ∀ n ∈ T.notes, n.sourceMessageId = s.sourceMessageId → n.communityId = s.communityId := by
    intro n hn he
    obtain ⟨s', hs', ho⟩ := hT.note_source n hn
    rw [Table.eq_of_key hs hs' (he.symm.trans ho.source.symm)]
    exact ho.community.symm
  have hchunk : ∀ c ∈ T.eventChunks, c.sourceMessageId = s.sourceMessageId →
      c.communityId = s.communityId := by
    intro c hc he
    obtain ⟨n, hn, ho⟩ := hT.chunk_note c hc
    exact ho.community.symm.trans (hnote n hn (ho.source.trans he))
  have hrecord : ∀ r ∈ T.embeddingRecords, r.sourceMessageId = s.sourceMessageId →
      r.communityId = s.communityId := by
    intro r hr he
    obtain ⟨c, hc, ho⟩ := hT.record_chunk r hr
    exact ho.community.symm.trans (hchunk c hc (ho.source.trans he))
  have hhit : ∀ x ∈ T.retrievalHits, T.chunkIsOf s.sourceMessageId x.chunkId = true →
      T.queryIsOf foreign x.queryId = false := by
    intro x hx he
    obtain ⟨c, hc, hid, hcs⟩ := chunkIsOf_iff.mp he
    obtain ⟨d, hd, hdid, hq⟩ := hhits x hx
    rw [Table.eq_of_key hd hc (hdid.trans hid.symm), hchunk c hc hcs] at hq
    exact queryIsOf_of_ne hq hne
  have hkept : ∀ {p q : Prop} [Decidable p] [Decidable q], (q → ¬ p) →
      decide p = true → decide q = false := fun h hp =>
    decide_eq_false fun hq => h hq (of_decide_eq_true hp)
  have hsources := Table.filter_discard (t := T.sourceMessages) (p := fun x => x.communityId = foreign)
    (q := fun x => x.sourceMessageId = s.sourceMessageId) fun x hx =>
    hkept fun he hp => hne ((Table.eq_of_key hx hs he) ▸ hp)
  have hnotes := Table.filter_discard (t := T.notes) (p := fun n => n.communityId = foreign)
    (q := fun n => n.sourceMessageId = s.sourceMessageId) fun n hn =>
    hkept fun he hp => hne ((hnote n hn he).symm.trans hp)
  have hchunks := Table.filter_discard (t := T.eventChunks) (p := fun c => c.communityId = foreign)
    (q := fun c => c.sourceMessageId = s.sourceMessageId) fun c hc =>
    hkept fun he hp => hne ((hchunk c hc he).symm.trans hp)
  have hrecords := Table.filter_discard (t := T.embeddingRecords)
    (p := fun r => r.communityId = foreign) (q := fun r => r.sourceMessageId = s.sourceMessageId)
    fun r hr => hkept fun he hp => hne ((hrecord r hr he).symm.trans hp)
  have hits := Table.filter_discard (t := T.retrievalHits) (p := fun x => T.queryIsOf foreign x.queryId)
    (q := fun x => T.chunkIsOf s.sourceMessageId x.chunkId) fun x hx hp => by
      by_contra hd
      rw [hhit x hx (Bool.of_not_eq_false hd)] at hp
      cases hp
  exact CommunityRows.ext hsources hnotes hchunks hrecords rfl hits rfl rfl rfl rfl rfl

/-- A call for one community that returns leaves the rows of another. -/
theorem rowsOf_effect {kind : StoreKind} {c : RepoCall} {env : Env}
    {client : Option EmbeddingClient} (hT : T.Linked) (hhits : T.HitsOwned) (hg : c.Guard T)
    (haccepted : ¬ c.Refused kind T) (hscoped : c.Scoped env client community T)
    (hne : community ≠ foreign) : (c.effect T).rowsOf foreign = T.rowsOf foreign := by
  have hother : ∀ {id : String}, id = community → decide (id = foreign) = false := by
    rintro id rfl
    exact decide_eq_false hne
  cases c with
  | getOrCreateSourceMessage s =>
    rw [RepoCall.effect]
    split
    · rfl
    · refine congrArg (fun rows : List SourceMessage =>
        { T.rowsOf foreign with sourceMessages := rows }) ?_
      exact Table.filter_put (hother hscoped) fun x hx he => absurd he (hg x hx)
  | saveNote n =>
    refine congrArg (fun rows : List Note => { T.rowsOf foreign with notes := rows }) ?_
    exact Table.filter_put (hother hscoped) fun x hx he => absurd he (hg.1 x hx).1
  | saveEventChunks cs =>
    refine congrArg (fun rows : List EventChunk => { T.rowsOf foreign with eventChunks := rows }) ?_
    exact Table.filter_putAll (fun c hc => hother (hscoped c hc)) fun c hc x hx he =>
      absurd he ((hg.2 c hc).1 x hx).1
  | saveEmbeddingRecords rs =>
    refine congrArg (fun rows : List EmbeddingRecord =>
      { T.rowsOf foreign with embeddingRecords := rows }) ?_
    refine Table.filter_putAll (fun r hr => hother (hscoped r hr).1) fun r hr x hx he => ?_
    -- a record at the same key is of the same chunk
    obtain ⟨c, hc, ho⟩ := hT.record_chunk x hx
    obtain ⟨d, hd, ho'⟩ := (hg.2 r hr).2
    have hcd : c = d := Table.eq_of_key hc hd
      (ho.chunk.trans ((congrArg Prod.fst he).trans ho'.chunk.symm))
    exact hother (ho.community.symm.trans (hcd ▸ ho'.community.trans (hscoped r hr).1))
  | setChunkEmbeddingStatus id status =>
    obtain ⟨⟨d, hd, hdid, hdc⟩, -⟩ := hscoped
    refine congrArg (fun rows : List EventChunk => { T.rowsOf foreign with eventChunks := rows }) ?_
    refine Table.filter_adjust (t := T.eventChunks) (f := EventChunk.withStatus status) (fun _ => rfl)
      fun x hx he => ?_
    have hxd : x = d := Table.eq_of_key hx hd (he.trans hdid.symm)
    exact ⟨hother (hxd ▸ hdc), hother (hxd ▸ hdc)⟩
  | markNote state id c =>
    obtain rfl : c = community := hscoped
    obtain ⟨-, -, ⟨m, hm, hmid, hmc, -⟩, -⟩ := hg
    refine congrArg (fun rows : List Note => { T.rowsOf foreign with notes := rows }) ?_
    refine Table.filter_adjust (t := T.notes) (f := Note.withState state) (fun _ => rfl)
      fun x hx he => ?_
    have hxm : x = m := Table.eq_of_key hx hm (he.trans hmid.symm)
    exact ⟨hother (hxm ▸ hmc), hother (hxm ▸ hmc)⟩
  | markChunk state id c =>
    obtain rfl : c = community := hscoped
    obtain ⟨-, -, d, hd, hdid, hdc, -⟩ := hg
    refine congrArg (fun rows : List EventChunk => { T.rowsOf foreign with eventChunks := rows }) ?_
    refine Table.filter_adjust (t := T.eventChunks) (f := EventChunk.withState state) (fun _ => rfl)
      fun x hx he => ?_
    have hxd : x = d := Table.eq_of_key hx hd (he.trans hdid.symm)
    exact ⟨hother (hxd ▸ hdc), hother (hxd ▸ hdc)⟩
  | hardDeleteSourceMessage id c =>
    obtain rfl : c = community := hscoped
    have howned : T.ownedSource id c ≠ none := fun h => haccepted (.inr (.inl h))
    obtain ⟨s, hsome⟩ := Option.ne_none_iff_exists'.mp howned
    obtain ⟨hs, rfl, rfl⟩ := ownedSource_eq_some.mp hsome
    exact rowsOf_removeSource hT hhits hs hne
  | saveIndexingDeadLetter d =>
    refine congrArg (fun rows : List IndexingDeadLetter =>
      { T.rowsOf foreign with indexingDeadLetters := rows }) ?_
    exact Table.filter_put (hother hscoped.1) fun x hx he => absurd he (hg.1 x hx)
  | saveQuery q =>
    have hq : q.communityId ≠ foreign := fun he => hne (hscoped.symm.trans he)
    have hqueries : (T.putQuery q).queryIsOf foreign = T.queryIsOf foreign :=
      funext (queryIsOf_putQuery hg hq)
    simp only [rowsOf, RepoCall.effect, hqueries]
    refine congrArg (fun rows : List Query => { T.rowsOf foreign with queries := rows }) ?_
    exact Table.filter_put (hother hscoped) fun x hx he => absurd he (hg x hx)
  | saveRetrievalHits hs =>
    refine congrArg (fun rows : List RetrievalHit =>
      { T.rowsOf foreign with retrievalHits := rows }) ?_
    exact Table.filter_putAll (fun h hh => queryIsOf_of_ne (hscoped h hh).1 hne) fun h hh x hx he =>
      absurd he ((hg.2.2 h hh).1 x hx).1
  | saveAnswerTrace t =>
    refine congrArg (fun rows : List AnswerTrace =>
      { T.rowsOf foreign with answerTraces := rows }) ?_
    exact Table.filter_put (queryIsOf_of_ne hscoped hne) fun x hx he => absurd he (hg.1 x hx).2
  | saveChatRouteDecision d =>
    refine congrArg (fun rows : List ChatRouteDecision =>
      { T.rowsOf foreign with chatRouteDecisions := rows }) ?_
    exact Table.filter_put (hother hscoped) fun x hx he => absurd he (hg.1 x hx)
  | saveChatQueryRewrite r =>
    refine congrArg (fun rows : List ChatQueryRewrite =>
      { T.rowsOf foreign with chatQueryRewrites := rows }) ?_
    exact Table.filter_put (hother hscoped) fun x hx he => absurd he (hg.1 x hx).2
  | saveChatKnowledgeSearch s =>
    refine congrArg (fun rows : List ChatKnowledgeSearch =>
      { T.rowsOf foreign with chatKnowledgeSearches := rows }) ?_
    exact Table.filter_put (hother hscoped) fun x hx he => absurd he (hg.1 x hx).2
  | _ => rfl

end Tables

section Runs

variable {kind : StoreKind} {engine : SearchEngine} {env : Env}
  {w : World (kind.backend engine).State}

/-- A request leaves the rows of any community but its own. -/
theorem Operation.rowsOf_run (hs : Sound env w) (hhits : w.rows.HitsOwned) (o : Operation)
    {foreign : String} (hne : o.community ≠ foreign) :
    (o.run (kind.backend engine) env w).rows.rowsOf foreign = w.rows.rowsOf foreign :=
  (o.keeps (I := fun T => T.HitsOwned ∧ T.rowsOf foreign = w.rows.rowsOf foreign) hs ⟨hhits, rfl⟩
    fun _ _ hT hg ha hscoped hI => ⟨hI.1.effect hg hscoped,
      (Tables.rowsOf_effect hT hI.1 hg ha hscoped hne).trans hI.2⟩).2

/-- In every state a run reaches, whatever fails, a request leaves every row of every
community but its own. -/
theorem foreign_rows_run (kind : StoreKind) (engine : SearchEngine) (env : Env)
    (ops : List Operation) (o : Operation) {foreign : String} (hne : o.community ≠ foreign) :
    let w := runAll (kind.backend engine) env (World.initial kind engine) ops
    (o.run (kind.backend engine) env w).rows.rowsOf foreign = w.rows.rowsOf foreign := by
  intro w
  have hhits : w.rows.HitsOwned := runAll_scoped Tables.hitsOwned_empty
    fun _ _ _ _ _ hg _ hscoped h => h.effect hg hscoped
  exact o.rowsOf_run (sound_run env ops) hhits hne

/-- A hard delete asked for by another community. -/
theorem foreign_rows_run_hardDelete :
    let w := runAll (StoreKind.mock.backend .plain) .steady (World.initial .mock .plain)
      [.ingest ⟨some ⟨"model", 1⟩⟩ (.plain .note "2026-05-09\nwalk" 0)]
    (Operation.run (StoreKind.mock.backend .plain) .steady w (.hardDelete "" "other")).rows.rowsOf
      "community" = w.rows.rowsOf "community" :=
  foreign_rows_run .mock .plain .steady _ (.hardDelete "" "other") (by decide)

end Runs

end DiaryMemory
