import DiaryMemory.Succession
import Mathlib.Data.List.Induction

/-!
# Replays

The result of a message state seen before is not stored : it is rebuilt from the source row, the
note and the chunks it left (`rebuilt`). The rows of a source row are added in the ingest that
adds the row, and none later (`Operation.promise_newRows`); what later requests change of them
are the marks, which the result does not show. So as long as no hard delete removed the source
row, its rows are those the ingest left, up to their marks (`sameSource_run`), and so is the
result (`replay_run`).
-/

namespace DiaryMemory

/-! ## The rows of one source row -/

namespace Tables

/-- The rows that hang on source row `id` are the same up to their marks. -/
structure SameSource (id : String) (T T' : Tables) : Prop where
  note_to : ∀ n ∈ T.notes, n.sourceMessageId = id → ∃ n' ∈ T'.notes, n.Same n'
  note_of : ∀ n' ∈ T'.notes, n'.sourceMessageId = id → ∃ n ∈ T.notes, n.Same n'
  chunk_to : ∀ c ∈ T.eventChunks, c.sourceMessageId = id → ∃ c' ∈ T'.eventChunks, c.Same c'
  chunk_of : ∀ c' ∈ T'.eventChunks, c'.sourceMessageId = id → ∃ c ∈ T.eventChunks, c.Same c'

variable {T T' : Tables} {id : String}

theorem Linked.getNote (hT : T.Linked) {n : Note} (hn : n ∈ T.notes) :
    T.getNoteBySourceMessageId n.sourceMessageId = some n := by
  cases hget : T.getNoteBySourceMessageId n.sourceMessageId with
  | none =>
    have hnone := List.find?_eq_none.mp hget n hn
    simp at hnone
  | some m =>
    have hm : m.sourceMessageId = n.sourceMessageId := by simpa using List.find?_some hget
    rw [hT.note_unique m (List.mem_of_find?_eq_some hget) n hn hm]

theorem getNote_eq_none : T.getNoteBySourceMessageId id = none ↔
    ∀ n ∈ T.notes, n.sourceMessageId ≠ id := by
  simp [getNoteBySourceMessageId, List.find?_eq_none]

theorem countEventChunks_eq_zero : T.countEventChunksForSource id = 0 ↔
    ∀ c ∈ T.eventChunks, c.sourceMessageId ≠ id := by
  simp [countEventChunksForSource, List.countP_eq_zero]

/-- A source row has at most one chunk. -/
theorem Linked.countEventChunks (hT : T.Linked) {c : EventChunk} (hc : c ∈ T.eventChunks) :
    T.countEventChunksForSource c.sourceMessageId = 1 := by
  have hle : T.countEventChunksForSource c.sourceMessageId ≤ 1 := by
    rw [countEventChunksForSource, List.countP_eq_length_filter]
    refine length_le_one_of_nodup (T.eventChunks.rows_nodup.filter _) fun a ha b hb => ?_
    obtain ⟨ham, ha⟩ := List.mem_filter.mp ha
    obtain ⟨hbm, hb⟩ := List.mem_filter.mp hb
    exact hT.chunk_eq_of_source ham hbm ((of_decide_eq_true ha).trans (of_decide_eq_true hb).symm)
  have hne : T.countEventChunksForSource c.sourceMessageId ≠ 0 := fun h =>
    countEventChunks_eq_zero.mp h c hc rfl
  omega

/-- The rebuilt result shows no marks. -/
theorem rebuilt_eq (hT : T.Linked) (hT' : T'.Linked) {s : SourceMessage}
    (h : SameSource s.sourceMessageId T T') : rebuilt T' s = rebuilt T s := by
  have hcount : T'.countEventChunksForSource s.sourceMessageId =
      T.countEventChunksForSource s.sourceMessageId := by
    by_cases hsome : ∃ c ∈ T.eventChunks, c.sourceMessageId = s.sourceMessageId
    · obtain ⟨c, hc, hid⟩ := hsome
      obtain ⟨c', hc', he⟩ := h.chunk_to c hc hid
      rw [← hid, hT.countEventChunks hc, ← he.sourceMessageId, hT'.countEventChunks hc']
    · have hnone : ∀ c ∈ T.eventChunks, c.sourceMessageId ≠ s.sourceMessageId := fun c hc hid =>
        hsome ⟨c, hc, hid⟩
      rw [countEventChunks_eq_zero.mpr hnone, countEventChunks_eq_zero]
      intro c' hc' hid
      obtain ⟨c, hc, he⟩ := h.chunk_of c' hc' hid
      exact hnone c hc (he.sourceMessageId.symm.trans hid)
  unfold rebuilt
  rw [hcount]
  cases hget : T.getNoteBySourceMessageId s.sourceMessageId with
  | none =>
    have hnone : T'.getNoteBySourceMessageId s.sourceMessageId = none := by
      refine getNote_eq_none.mpr fun n' hn' hid => ?_
      obtain ⟨n, hn, he⟩ := h.note_of n' hn' hid
      exact getNote_eq_none.mp hget n hn (he.sourceMessageId.symm.trans hid)
    rw [hnone]
  | some n =>
    have hn : n ∈ T.notes := List.mem_of_find?_eq_some hget
    have hid : n.sourceMessageId = s.sourceMessageId := by simpa using List.find?_some hget
    obtain ⟨n', hn', he⟩ := h.note_to n hn hid
    have hget' := hT'.getNote hn'
    have hdate : n'.noteDate = n.noteDate := (congrArg Note.noteDate he :)
    rw [he.sourceMessageId, hid] at hget'
    rw [hget']
    simp only [hdate]

theorem rebuilt_of_none {s : SourceMessage} (hroute : s.detectedRoute ≠ .draft)
    (h : T.getNoteBySourceMessageId s.sourceMessageId = none) : rebuilt T s =
      { fallback := .invalidInput, sourceMessageId := s.sourceMessageId
        invalidFirstLine := some (firstLine s.rawText), replayed := true } := by
  rw [rebuilt, if_neg hroute, h]

theorem rebuilt_of_some {s : SourceMessage} {n : Note} (hroute : s.detectedRoute ≠ .draft)
    (h : T.getNoteBySourceMessageId s.sourceMessageId = some n) : rebuilt T s =
      { fallback := .none, sourceMessageId := s.sourceMessageId, noteDate := some n.noteDate
        eventsCount := T.countEventChunksForSource s.sourceMessageId, replayed := true } := by
  rw [rebuilt, if_neg hroute, h]

theorem rebuilt_replayed (T : Tables) (s : SourceMessage) :
    { rebuilt T s with replayed := true } = rebuilt T s := by
  unfold rebuilt
  split
  · rfl
  · split <;> rfl

theorem rebuilt_sourceMessageId (T : Tables) (s : SourceMessage) :
    (rebuilt T s).sourceMessageId = s.sourceMessageId := by
  unfold rebuilt
  split
  · rfl
  · split <;> rfl

end Tables

/-! ## The rows a request adds -/

/-- The note or the chunks the call adds hang on a source row that was not in `T₀`. -/
def RepoCall.NewRows (T₀ : Tables) : RepoCall → Prop
  | saveNote n => ∀ s ∈ T₀.sourceMessages, s.sourceMessageId ≠ n.sourceMessageId
  | saveEventChunks cs => ∀ c ∈ cs, ∀ s ∈ T₀.sourceMessages, s.sourceMessageId ≠ c.sourceMessageId
  | _ => True

section Requests

variable {env : Env} {client : Option EmbeddingClient} {community : String} {T₀ T : Tables}
  {c : RepoCall}

theorem IngestPromise.newRows (h : IngestPromise env client community T₀ (.repo c) T) :
    c.NewRows T₀ := by
  obtain ⟨source, hsource, h⟩ := h
  cases c with
  | saveNote n => exact fun s hs => h.1 ▸ hsource s hs
  | saveEventChunks cs => exact fun x hx s hs => (h x hx).1 ▸ hsource s hs
  | _ => trivial

theorem AnswerCall.newRows (h : AnswerCall community (.repo c) T) : c.NewRows T₀ := by
  cases c with
  | saveNote | saveEventChunks => exact absurd h id
  | _ => trivial

/-- A note or a chunk is added in the request that adds its source row. -/
theorem Operation.promise_newRows {o : Operation} (h : o.Promise env T₀ (.repo c) T) :
    c.NewRows T₀ := by
  have hdelete : ∀ {community}, DeleteCall community (.repo c) T → c.NewRows T₀ := by
    intro community h
    cases c with
    | saveNote | saveEventChunks => exact absurd h id
    | _ => trivial
  cases o with
  | ingest service message => exact IngestPromise.newRows h
  | delete chat target community => exact hdelete h
  | retry service community limit =>
    cases c with
    | saveNote | saveEventChunks => exact absurd h id
    | _ => trivial
  | hardDelete id community =>
    cases h
    trivial
  | ask | chat => exact AnswerCall.newRows h
  | dispatch dispatcher message =>
    have h : DispatchCall env dispatcher message T₀ (.repo c) T := h
    unfold DispatchCall at h
    cases hroute : message.route <;> rw [hroute] at h
    case note | draft => exact IngestPromise.newRows h
    case ask =>
      rcases h with h | ⟨_, h, -⟩
      · exact AnswerCall.newRows h
      · cases h
    case chat => exact AnswerCall.newRows h
    case drafts | export_ =>
      exact (h.answerCall : AnswerCall message.communityId (.repo c) T).newRows
    case delete => exact hdelete h
    case sources => cases h
    all_goals exact absurd h id

end Requests

/-- Notes and chunks of source row `id` are the ones of `T`, up to their marks. -/
def Tables.NothingNew (id : String) (T T' : Tables) : Prop :=
  (∀ n' ∈ T'.notes, n'.sourceMessageId = id → ∃ n ∈ T.notes, n.Same n') ∧
    ∀ c' ∈ T'.eventChunks, c'.sourceMessageId = id → ∃ c ∈ T.eventChunks, c.Same c'

/-- A call of a request that found source row `id` adds nothing to it. -/
theorem Tables.NothingNew.effect {id : String} {T T' T₀ : Tables} {c : RepoCall}
    (h : T.NothingNew id T') (hc : c.NewRows T₀) (hid : ∃ s ∈ T₀.sourceMessages, s.sourceMessageId = id) :
    T.NothingNew id (c.effect T') := by
  obtain ⟨s, hs, rfl⟩ := hid
  obtain ⟨hn, hch⟩ := h
  have hnotes : ∀ {U : Tables}, (∀ n' ∈ U.notes, ∃ n ∈ T'.notes, n.Same n') →
      ∀ n' ∈ U.notes, n'.sourceMessageId = s.sourceMessageId → ∃ n ∈ T.notes, n.Same n' := by
    intro U hU n' hn' hsource
    obtain ⟨m, hm, he⟩ := hU n' hn'
    obtain ⟨n, hnm, he'⟩ := hn m hm (he.sourceMessageId.symm.trans hsource)
    exact ⟨n, hnm, he'.trans he⟩
  have hchunks : ∀ {U : Tables}, (∀ c' ∈ U.eventChunks, ∃ c ∈ T'.eventChunks, c.Same c') →
      ∀ c' ∈ U.eventChunks, c'.sourceMessageId = s.sourceMessageId →
        ∃ c ∈ T.eventChunks, c.Same c' := by
    intro U hU c' hc' hsource
    obtain ⟨d, hd, he⟩ := hU c' hc'
    obtain ⟨c, hcm, he'⟩ := hch d hd (he.sourceMessageId.symm.trans hsource)
    exact ⟨c, hcm, he'.trans he⟩
  cases c with
  | getOrCreateSourceMessage x =>
    rw [RepoCall.effect]
    split <;> exact ⟨hn, hch⟩
  | saveNote n => exact ⟨Table.forall_put hn fun he => absurd he.symm (hc s hs), hch⟩
  | saveEventChunks cs =>
    exact ⟨hn, Table.forall_putAll hch fun x hx he => absurd he.symm (hc x hx s hs)⟩
  | markNote state id =>
    exact ⟨hnotes (sameRows_markNote T' state id).note_of,
      hchunks (sameRows_markNote T' state id).chunk_of⟩
  | markChunk state id =>
    exact ⟨hnotes (sameRows_markChunk T' state id).note_of,
      hchunks (sameRows_markChunk T' state id).chunk_of⟩
  | setChunkEmbeddingStatus id status =>
    exact ⟨hnotes (sameRows_setStatus T' id status).note_of,
      hchunks (sameRows_setStatus T' id status).chunk_of⟩
  | hardDeleteSourceMessage id =>
    exact ⟨hnotes fun n' hn' => ⟨n', (Table.mem_discard.mp hn').1, .refl n'⟩,
      hchunks fun c' hc' => ⟨c', (Table.mem_discard.mp hc').1, .refl c'⟩⟩
  | _ => exact ⟨hn, hch⟩

section Runs

variable {kind : StoreKind} {engine : SearchEngine} {env : Env}
  {w : World (kind.backend engine).State}

/-- Along a run that does not remove it, a source row keeps its rows up to their marks. -/
theorem sameSource_run (hs : Sound env w) {s : SourceMessage} (hsource : s ∈ w.rows.sourceMessages)
    (ops : List Operation)
    (hkept : s.sourceMessageId ∉ (runAll (kind.backend engine) env w ops).removalsSince w.tick) :
    s ∈ (runAll (kind.backend engine) env w ops).rows.sourceMessages ∧
      Tables.SameSource s.sourceMessageId w.rows (runAll (kind.backend engine) env w ops).rows := by
  have hevolves := evolves_runAll hs ops
  have hnew : w.rows.NothingNew s.sourceMessageId (runAll (kind.backend engine) env w ops).rows := by
    clear hevolves
    induction ops using List.reverseRecOn with
    | nil => exact ⟨fun n hn _ => ⟨n, hn, .refl n⟩, fun c hc _ => ⟨c, hc, .refl c⟩⟩
    | append_singleton ops o ih =>
      have hs' := sound_runAll hs ops
      obtain ⟨es, hlog, -⟩ := continues_runAll hs ops
      obtain ⟨-, es', hlog', ht⟩ := Operation.run_spec hs' o
      rw [runAll_append] at hkept ⊢
      have hsub : s.sourceMessageId ∉
          (runAll (kind.backend engine) env w ops).removalsSince w.tick := by
        refine fun hmem => hkept ?_
        change s.sourceMessageId ∈
          (o.run (kind.backend engine) env (runAll (kind.backend engine) env w ops)).removalsSince _
        rw [World.removalsSince, hlog', hlog, List.append_assoc, World.tick, List.drop_left,
          List.filterMap_append]
        rw [World.removalsSince, hlog, World.tick, List.drop_left] at hmem
        exact List.mem_append_left _ hmem
      have hthere := ((evolves_runAll hs ops).sources s hsource).resolve_right hsub
      exact (ht.keeps (fun c T _ _ _ hp hT =>
        hT.effect (Operation.promise_newRows hp) ⟨s, hthere, rfl⟩) (ih hsub)).1
  refine ⟨(hevolves.sources s hsource).resolve_right hkept, fun n hn hid => ?_, hnew.1,
    fun c hc hid => ?_, hnew.2⟩
  · obtain ⟨n', hn', he⟩ := (hevolves.notes n hn).resolve_right (hid ▸ hkept)
    exact ⟨n', hn', he.1⟩
  · obtain ⟨c', hc', he⟩ := (hevolves.chunks c hc).resolve_right (hid ▸ hkept)
    exact ⟨c', hc', he.1⟩

/-! ## The result of an ingest -/

/-- A call that returned found its source row, or added it; rebuilding it from the rows of the
world gives the result. -/
def Rebuilds (message : InboundMessage) (result : IngestResult)
    (w : World (kind.backend engine).State) : Prop :=
  ∃ s ∈ w.rows.sourceMessages, s.messageKey = message.messageKey ∧
    rebuilt w.rows s = { result with replayed := true }

/-- What an ingest of a new message state leaves gives its result again. -/
theorem FreshOutcome.rebuilds {service : DomainService} {message : InboundMessage} {source : String}
    {now : DateTime} {result : IngestResult} {w' : World (kind.backend engine).State}
    (hT : w'.rows.Linked)
    (hsource : DomainService.sourceRow message source now ∈ w.rows.sourceMessages)
    (hnotes : ∀ n ∈ w.rows.notes, n.sourceMessageId ≠ source)
    (hchunks : ∀ c ∈ w.rows.eventChunks, c.sourceMessageId ≠ source)
    (h : FreshOutcome env service message source now w (.ok result) w') :
    Rebuilds message result w' := by
  refine ⟨DomainService.sourceRow message source now, ?_⟩
  generalize hr : (Except.ok result : Except Exn IngestResult) = r at h
  cases h with
  | removed hroute hc =>
    subst hr
    obtain ⟨rfl, hp⟩ := hc
    have hrows := hp.rows
    rw [effects_removalCalls] at hrows
    refine ⟨?_, rfl, if_pos hroute⟩
    rw [hrows, Tables.flip_sourceMessages]
    exact hsource
  | unparsed hroute hparse =>
    cases hr
    refine ⟨hsource, rfl, ?_⟩
    exact Tables.rebuilt_of_none hroute (Tables.getNote_eq_none.mpr hnotes)
  | stopped => cases hr
  | @saved parsed noteId chunkId r w₁ _ hroute hparse hids hunused hp ho =>
    set v := revision w.rows message source now parsed noteId chunkId with hv
    have hrows : w₁.rows = v.save w.rows := by rw [hp.rows, Revision.effects_calls]
    have hsave := ho.restatused
    rw [hrows] at hsave
    have hresult : result = savedResult source parsed v := by
      cases r with
      | error e => cases hr
      | ok u => exact Except.ok.inj hr
    have hnote : v.note ∈ w'.rows.notes := by
      rw [hsave.notes]
      exact (Revision.mem_save_notes hv hunused).mpr (.inl rfl)
    have hcount : w'.rows.countEventChunksForSource source = v.chunks.length := by
      match hvc : v.chunks, Revision.length_chunks hv with
      | [], _ =>
        refine Tables.countEventChunks_eq_zero.mpr fun c' hc' => ?_
        obtain ⟨c, hc, he⟩ := hsave.mem hc'
        rcases (Revision.mem_save_chunks hv hunused).mp hc with hmem | ⟨d, hd, rfl⟩
        · rw [hvc] at hmem
          cases hmem
        · rw [he]
          split <;> exact hchunks d hd
      | [c], _ =>
        have hcm : c ∈ v.chunks := hvc ▸ List.mem_cons_self
        obtain ⟨status, hmem⟩ :=
          hsave.mem_of ((Revision.mem_save_chunks hv hunused).mpr (.inl hcm))
        have hof : (c.withStatus status).sourceMessageId = source := by
          rw [((Revision.mem_chunks hv).mp hcm).2]
          rfl
        exact hof ▸ hT.countEventChunks hmem
    refine ⟨?_, rfl, ?_⟩
    · rw [hsave.sources, Revision.save_sourceMessages]
      exact hsource
    · refine (Tables.rebuilt_of_some (n := v.note) hroute (hT.getNote hnote)).trans ?_
      rw [hresult, show w'.rows.countEventChunksForSource
        (DomainService.sourceRow message source now).sourceMessageId = _ from hcount]
      rfl

/-- An ingest that returned left the rows its result is rebuilt from. -/
theorem ingest_rebuilds (hs : Sound env w) {service : DomainService} {message : InboundMessage}
    {result : IngestResult}
    (h : ((service.ingest message).exec (kind.backend engine) env w).1 = .ok result) :
    Rebuilds message result ((service.ingest message).exec (kind.backend engine) env w).2 := by
  have hout := ingest_outcome hs service message
  have hT := (Operation.run_spec hs (.ingest service message)).1.linked
  rw [Operation.run] at hT
  rw [h] at hout
  generalize ((service.ingest message).exec (kind.backend engine) env w).2 = w' at hout hT
  generalize hr : (Except.ok result : Except Exn IngestResult) = r at hout
  cases hout with
  | refused => cases hr
  | @replayed s existing _ w₁ _ hexisting hkey hp hc =>
    subst hr
    have hfixed : RepoCall.effects [.getOrCreateSourceMessage s] w.rows = w.rows := by
      change (RepoCall.getOrCreateSourceMessage s).effect w.rows = w.rows
      rw [RepoCall.effect, hkey, hexisting]
    have hreads := (hc.2.store_of_fixed fun c hcm => rebuildCalls_read _ _ c hcm _).2
    have hrows : w'.rows = w.rows := by rw [hreads, hp.rows, hfixed]
    have hresult : result = rebuilt w.rows existing := hc.1
    have hmem : existing ∈ w.rows.sourceMessages := List.mem_of_find?_eq_some hexisting
    refine ⟨existing, hrows ▸ hmem, by simpa using List.find?_some hexisting, ?_⟩
    rw [hrows, hresult, Tables.rebuilt_replayed]
  | @fresh source now _ w₁ _ hnone hunused hp ho =>
    subst hr
    refine ho.rebuilds hT ?_ ?_ ?_ <;> rw [hp.rows_added hnone]
    · exact Table.mem_put_self
    · exact (hs.linked.underived hunused).1
    · exact (hs.linked.underived hunused).2

/-- A call that no store refuses raised by itself. -/
theorem Raised.fails {c : RepoCall} {e : Exn} {w' : World (kind.backend engine).State}
    (h : Raised env c w e w') (hc : ¬ c.Refused kind w.rows) :
    ∃ n c, w.tick ≤ n ∧ env.storeFails n c = some e := by
  obtain ⟨n, hn, hfails | ⟨-, href⟩⟩ := h.why
  · exact ⟨n, c, hn, hfails⟩
  · exact absurd href hc

/-- Where ingesting a message state again ends : the store is as it was, no provider was asked,
and the result is the same, marked as replayed, unless the store failed. -/
structure ReplayEnd (env : Env) (result : IngestResult) (w : World (kind.backend engine).State)
    (r : Except Exn IngestResult) (w' : World (kind.backend engine).State) : Prop where
  store : w'.store = w.store
  asked : w'.asked = w.asked
  returned : ∀ again, r = .ok again → again = { result with replayed := true }
  raised : ∀ e, r = .error e → ∃ n c, w.tick ≤ n ∧ env.storeFails n c = some e

theorem ReplayEnd.of_returned {result again : IngestResult}
    {w w' : World (kind.backend engine).State} (hstore : w'.store = w.store)
    (hasked : w'.asked = w.asked) (h : again = { result with replayed := true }) :
    ReplayEnd env result w (.ok again) w' where
  store := hstore
  asked := hasked
  returned _ hr := Except.ok.inj hr ▸ h
  raised _ hr := nomatch hr

theorem ReplayEnd.of_raised {result : IngestResult} {w w' : World (kind.backend engine).State}
    {e : Exn} (hstore : w'.store = w.store) (hasked : w'.asked = w.asked)
    (h : ∃ n c, w.tick ≤ n ∧ env.storeFails n c = some e) :
    ReplayEnd env result w (.error e) w' where
  store := hstore
  asked := hasked
  returned _ hr := nomatch hr
  raised _ hr := Except.error.inj hr ▸ h

/-- A result that the rows rebuild is returned again. -/
theorem Rebuilds.again {message : InboundMessage} {result : IngestResult}
    (h : Rebuilds message result w) (hT : w.rows.Linked) {service : DomainService}
    {r : Except Exn IngestResult} {w' : World (kind.backend engine).State}
    (hout : IngestOutcome env service message w r w') : ReplayEnd env result w r w' := by
  obtain ⟨s, hs, hkey, hresult⟩ := h
  have hfind : w.rows.sourceForKey message.messageKey = some s := hkey ▸ hT.sourceForKey hs
  have hafter : ∀ {w₁ : World (kind.backend engine).State} {e : Exn}, w.log <+: w₁.log →
      (∃ n c, w₁.tick ≤ n ∧ env.storeFails n c = some e) →
      ∃ n c, w.tick ≤ n ∧ env.storeFails n c = some e := by
    rintro w₁ e hlog ⟨n, c, hn, hfails⟩
    exact ⟨n, c, hlog.length_le.trans hn, hfails⟩
  cases hout with
  | refused hl hr =>
    exact .of_raised (hr.store.trans hl.store) (hr.asked.trans hl.asked)
      (hafter hl.log (hr.fails id))
  | @replayed x existing _ w₁ _ hexisting hx hp hc =>
    obtain rfl : s = existing := Option.some.inj (hfind.symm.trans hexisting)
    have hfixed : ∀ c ∈ [RepoCall.getOrCreateSourceMessage x], c.effect w.rows = w.rows := by
      intro c hcm
      rw [List.mem_singleton.mp hcm, RepoCall.effect, hx, hfind]
    obtain ⟨hstore, hrows⟩ := hp.store_of_fixed hfixed
    have hasked := hc.asked.trans hp.asked
    cases r with
    | ok again =>
      exact .of_returned ((hc.2.store (rebuildCalls_read _ _)).trans hstore) hasked
        (hc.1.trans hresult)
    | error e =>
      obtain ⟨done, c, rest, w₂, hcs, hpath, hraised⟩ := hc
      have hreads : ∀ c ∈ done, ∀ T : Tables, c.effect T = T := fun c hcm =>
        rebuildCalls_read w.rows s c (hcs ▸ List.mem_append_left _ hcm)
      have hcm : c ∈ rebuildCalls w.rows s := hcs ▸ List.mem_append_right _ List.mem_cons_self
      refine .of_raised (hraised.store.trans ((hpath.store hreads).trans hstore)) hasked
        (hafter (hp.log.trans hpath.log) (hraised.fails ?_))
      unfold rebuildCalls at hcm
      split at hcm
      · cases hcm
      · rcases List.mem_cons.mp hcm with rfl | hcm
        · exact id
        · obtain ⟨_, -, rfl⟩ := List.mem_map.mp hcm
          exact id
  | fresh hnone => cases hfind.symm.trans hnone

/-- In every run, whatever failed in it, a message that an ingest returned a result for is ingested
again, after any later requests that did not remove its source row, without a change to the store
and without asking a provider : the result is the same, marked as replayed, unless the store fails
in the ingest itself. -/
theorem replay_run (kind : StoreKind) (engine : SearchEngine) (env : Env)
    (before after : List Operation) (service service' : DomainService) (message : InboundMessage)
    (result : IngestResult) :
    let first := (service.ingest message).exec (kind.backend engine) env
      (runAll (kind.backend engine) env (World.initial kind engine) before)
    let w := runAll (kind.backend engine) env first.2 after
    let again := (service'.ingest message).exec (kind.backend engine) env w
    first.1 = .ok result → result.sourceMessageId ∉ w.removalsSince first.2.tick →
    ReplayEnd env result w again.1 again.2 := by
  intro first w again hresult hkept
  have hs := @sound_run kind engine env before
  have hfirst : Sound env first.2 := (Operation.run_spec hs (.ingest service message)).1
  obtain ⟨s, hsource, hkey, hrebuilt⟩ := ingest_rebuilds hs hresult
  have hid : s.sourceMessageId = result.sourceMessageId := by
    rw [← Tables.rebuilt_sourceMessageId first.2.rows s, hrebuilt]
  obtain ⟨hthere, hsame⟩ := sameSource_run hfirst hsource after (hid ▸ hkept)
  have hw : Sound env w := sound_runAll hfirst after
  have hstill : Rebuilds message result w :=
    ⟨s, hthere, hkey, (Tables.rebuilt_eq hfirst.linked hw.linked hsame).trans hrebuilt⟩
  exact hstill.again hw.linked (ingest_outcome hw service' message)

/-- A note ingested again after it was edited and deleted, and its embedding retried. -/
theorem replay_run_edited :
    let first := ((⟨none⟩ : DomainService).ingest (.plain .note "2026-05-09\nwalk" 0)).exec
      (StoreKind.mock.backend .plain) .steady (World.initial .mock .plain)
    let w := runAll (StoreKind.mock.backend .plain) .steady first.2
      [.ingest ⟨some ⟨"model", 1⟩⟩ (.plain .note "2026-05-09\nrun" 1),
        .delete "chat" "message" "community", .retry ⟨some ⟨"model", 1⟩⟩ "community" none]
    let again := ((⟨some ⟨"model", 1⟩⟩ : DomainService).ingest
      (.plain .note "2026-05-09\nwalk" 0)).exec (StoreKind.mock.backend .plain) .steady w
    ReplayEnd .steady ⟨.none, "", some ⟨2026, 5, 9, by decide⟩, 1, none, false⟩ w again.1
      again.2 := by
  refine replay_run .mock .plain .steady []
    [.ingest ⟨some ⟨"model", 1⟩⟩ (.plain .note "2026-05-09\nrun" 1),
      .delete "chat" "message" "community", .retry ⟨some ⟨"model", 1⟩⟩ "community" none]
    ⟨none⟩ ⟨some ⟨"model", 1⟩⟩ (.plain .note "2026-05-09\nwalk" 0) _ ?_ ?_
  · have hfirst : (((⟨none⟩ : DomainService).ingest (.plain .note "2026-05-09\nwalk" 0)).exec
        (StoreKind.mock.backend .plain) .steady (World.initial .mock .plain)).1.toOption =
        some ⟨.none, "", some ⟨2026, 5, 9, by decide⟩, 1, none, false⟩ := by decide +kernel
    exact ok_of_toOption hfirst
  · decide +kernel

end Runs

end DiaryMemory
