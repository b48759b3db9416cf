import DiaryMemory.Rendering
import DiaryMemory.Succession
import Mathlib.Data.List.Induction

/-!
# What the replies show of the notes

An answer of `/ask` or `/chat` shows chunks of its retrieval, which are there, active and of the
community when the reply is given. `/sources` shows the chunks the community's latest `/ask`
cited, from a cache that is a function of the calls made so far (`Cached`) : each of them was
active when that `/ask` was served, and may have been superseded, tombstoned or removed since.

An identifier whose chunk is not active any more, or gone, never names an active chunk again
(`withdrawn_run`), so that neither `/ask` nor `/chat` shows it, nor `/sources` after the next
`/ask` (`shown_run`).
-/

namespace DiaryMemory

/-! ## The cache -/

/-- The chunks an event cached for the community. -/
def Event.cached (community : String) (e : Event) : Option (List EventChunk) :=
  match e.call with
  | .sys (.setLatestSources c chunks) => if c = community then some chunks else none
  | _ => none

section Cache

variable {kind : StoreKind} {engine : SearchEngine} {env : Env}
  {w w' : World (kind.backend engine).State}

/-- The cache holds for every community what was cached for it last. -/
def Cached (w : World (kind.backend engine).State) : Prop :=
  ∀ community, (w.latestSources.find? community).map Prod.snd =
    (w.log.filterMap (Event.cached community)).getLast?

theorem cached_initial : Cached (World.initial kind engine) := fun _ => rfl

/-- Only one call writes the cache. -/
theorem latestSources_serve (c : Call) (w : World (kind.backend engine).State) (community : String) :
    (((serve (kind.backend engine) env c w).2.latestSources.find? community).map Prod.snd) =
      match Event.cached community ⟨w.rows, c, raised c (serve (kind.backend engine) env c w).1⟩ with
      | some chunks => some chunks
      | none => (w.latestSources.find? community).map Prod.snd := by
  cases c with
  | repo c =>
    simp only [serve, respond, serveRepo, Event.cached]
    cases env.storeFails w.tick c <;> rfl
  | sys c =>
    cases c with
    | setLatestSources c chunks =>
      simp only [serve, respond, answer, World.record, Event.cached, Table.find?_put]
      by_cases hc : c = community
      · simp [hc]
      · simp [hc]
    | _ => rfl

theorem Cached.serve (h : Cached w) (c : Call) : Cached (serve (kind.backend engine) env c w).2 := by
  intro community
  rw [latestSources_serve, log_serve, List.filterMap_append, List.getLast?_append, ← h community]
  cases hcached : Event.cached community
      ⟨w.rows, c, raised c (DiaryMemory.serve (kind.backend engine) env c w).1⟩ with
  | none => simp [hcached]
  | some chunks => simp [hcached]

theorem Cached.exec {α : Type} (h : Cached w) (p : Proc α) :
    Cached (p.exec (kind.backend engine) env w).2 := by
  have hprog : ∀ (q : Prog Call Reply (Except Exn α)) (v : World (kind.backend engine).State),
      Cached v → Cached (q.run (DiaryMemory.serve (kind.backend engine) env) v).2 := by
    intro q
    induction q with
    | ret a => exact fun v hv => hv
    | call c k ih => exact fun v hv => ih _ _ (hv.serve c)
  exact hprog p.run w h

theorem cached_run (env : Env) (ops : List Operation) :
    Cached (runAll (kind.backend engine) env (World.initial kind engine) ops) :=
  runAll_induction (sound_initial kind engine env) cached_initial fun o _ v _ hv => by
    cases o <;> exact hv.exec _

/-- The last value a list yields comes from an element after which none yields one. -/
theorem exists_last {α β : Type} {f : α → Option β} {b : β} :
    ∀ {l : List α}, (l.filterMap f).getLast? = some b →
      ∃ pre a post, l = pre ++ a :: post ∧ f a = some b ∧ ∀ x ∈ post, f x = none
  | [], h => by cases h
  | a :: l, h => by
    cases hl : (l.filterMap f).getLast? with
    | some b' =>
      rw [List.filterMap_cons] at h
      have hb : b' = b := by
        cases ha : f a with
        | none =>
          rw [ha] at h
          exact Option.some.inj (hl.symm.trans h)
        | some x =>
          rw [ha] at h
          simp only [List.getLast?_cons, hl, Option.getD_some] at h
          exact Option.some.inj h
      obtain ⟨pre, x, post, rfl, hx, hpost⟩ := exists_last hl
      exact ⟨a :: pre, x, post, rfl, hb ▸ hx, hpost⟩
    | none =>
      have hnil : l.filterMap f = [] := List.getLast?_eq_none_iff.mp hl
      rw [List.filterMap_cons, hnil] at h
      cases ha : f a with
      | none =>
        rw [ha] at h
        cases h
      | some x =>
        rw [ha] at h
        exact ⟨[], a, l, rfl, ha.trans h, fun y hy => List.filterMap_eq_nil_iff.mp hnil y hy⟩

/-- The event `e`, after the calls `earlier`, is the latest in which chunks were cached for the
community. -/
structure LatestAsk (w : World (kind.backend engine).State) (community : String)
    (earlier : List Event) (e : Event) (chunks : List EventChunk) : Prop where
  call : e.call = .sys (.setLatestSources community chunks)
  log : ∃ later, w.log = earlier ++ e :: later ∧ ∀ f ∈ later, f.cached community = none

/-- What the cache holds for a community comes from its latest `/ask`. -/
theorem Cached.latestAsk (h : Cached w) {community : String} {chunks : List EventChunk}
    (hfind : (w.latestSources.find? community).map Prod.snd = some chunks) :
    ∃ earlier e, LatestAsk w community earlier e chunks := by
  obtain ⟨earlier, e, later, hlog, hcached, hlater⟩ := exists_last ((h community).symm.trans hfind)
  refine ⟨earlier, e, ?_, later, hlog, hlater⟩
  obtain ⟨before, call, raised⟩ := e
  cases call with
  | repo c => cases hcached
  | sys c =>
    cases c with
    | setLatestSources c chunks' =>
      simp only [Event.cached, Option.ite_none_right_eq_some, Option.some.injEq] at hcached
      obtain ⟨rfl, rfl⟩ := hcached
      rfl
    | _ => cases hcached

end Cache

/-! ## The chunks a request caches -/

section Promises

variable {kind : StoreKind} {engine : SearchEngine} {env : Env} {T₀ T : Tables}

/-- The calls of a question leave the chunks as they are. -/
theorem AskCall.eventChunks {community : String} {c : RepoCall}
    (h : AskCall community (.repo c) T) : (c.effect T).eventChunks = T.eventChunks := by
  obtain h | ⟨_, h, -⟩ := h
  · cases c with
    | saveQuery | saveRetrievalHits | saveAnswerTrace | saveChatRouteDecision
    | saveChatQueryRewrite | saveChatKnowledgeSearch | denseCandidates | sparseCandidates
    | listRecentDrafts | listSourceMessages => rfl
    | _ => exact absurd h id
  · cases h

/-- What a request caches are chunks that can be shown to the community, on the rows the request
starts from as on those it finds. -/
theorem Operation.cached_servable {o : Operation} {es : List Event} {T' : Tables}
    (ht : Trace kind (o.Promise env T₀) T₀ es T') {e : Event} (he : e ∈ es) {community : String}
    {chunks : List EventChunk} (hcall : e.call = .sys (.setLatestSources community chunks)) :
    ∀ c ∈ chunks, T₀.Servable community c ∧ e.before.Servable community c := by
  have hpromise := ht.promised e he
  rw [hcall] at hpromise
  cases o with
  | dispatch dispatcher message =>
    have h : DispatchCall env dispatcher message T₀ (.sys (.setLatestSources community chunks))
      e.before := hpromise
    unfold DispatchCall at h
    cases hroute : message.route <;> rw [hroute] at h
    case ask =>
      have hkeep := (ht.keeps (I := fun T => T.eventChunks = T₀.eventChunks)
        (fun c T _ _ _ hp hT => ?_) rfl).2 e he
      · obtain h | ⟨chunks', heq, hservable⟩ := h
        · exact absurd h id
        · cases heq
          exact fun c hc => ⟨⟨hkeep ▸ (hservable c hc).1, (hservable c hc).2⟩, hservable c hc⟩
      · have hp : DispatchCall env dispatcher message T₀ (.repo c) T := hp
        rw [DispatchCall, hroute] at hp
        exact hp.eventChunks.trans hT
    case note | draft =>
      obtain ⟨_, -, h⟩ := h
      exact absurd h id
    case sources => cases h
    all_goals exact absurd h id
  | hardDelete id community => cases hpromise
  | ingest service message =>
    obtain ⟨_, -, h⟩ := hpromise
    exact absurd h id
  | _ => exact absurd hpromise id

end Promises

/-! ## Identifiers of chunks that are not active -/

/-- No active chunk has the identifier. -/
def Tables.Inactive (T : Tables) (id : String) : Prop :=
  ∀ c ∈ T.eventChunks, c.chunkId = id → c.lifecycleState ≠ .active

/-- The call brings no chunk with the identifier, and makes none active. -/
def RepoCall.Avoids (id : String) : RepoCall → Prop
  | saveEventChunks cs => ∀ c ∈ cs, c.chunkId ≠ id
  | markChunk state _ _ => state ≠ .active
  | _ => True

namespace Tables.Inactive

variable {T : Tables} {id : String}

theorem effect (h : T.Inactive id) {c : RepoCall} (hc : c.Avoids id) : (c.effect T).Inactive id := by
  cases c with
  | getOrCreateSourceMessage s =>
    rw [RepoCall.effect]
    split <;> exact h
  | saveEventChunks cs => exact Table.forall_putAll h fun c hcm hid => absurd hid (hc c hcm)
  | setChunkEmbeddingStatus cid status =>
    intro c' hc' hid
    obtain ⟨c, hcm, rfl⟩ := mem_setStatus.mp hc'
    by_cases hk : c.chunkId = cid
    · rw [if_pos hk] at hid ⊢
      exact h c hcm hid
    · rw [if_neg hk] at hid ⊢
      exact h c hcm hid
  | markChunk state cid =>
    intro c' hc' hid
    obtain ⟨c, hcm, rfl⟩ := mem_markChunk.mp hc'
    by_cases hk : c.chunkId = cid
    · rw [if_pos hk]
      exact hc
    · rw [if_neg hk] at hid ⊢
      exact h c hcm hid
  | hardDeleteSourceMessage source => exact fun c hcm => h c (Table.mem_discard.mp hcm).1
  | _ => exact h

theorem effects (h : T.Inactive id) {cs : List RepoCall} (hcs : ∀ c ∈ cs, c.Avoids id) :
    (RepoCall.effects cs T).Inactive id := by
  induction cs generalizing T with
  | nil => exact h
  | cons c cs ih =>
    exact ih (h.effect (hcs c List.mem_cons_self)) fun d hd => hcs d (List.mem_cons_of_mem _ hd)

theorem restatused {T' : Tables} (h : T.Inactive id) (hr : T.Restatused T') : T'.Inactive id := by
  intro c' hc' hid
  obtain ⟨c, hc, he⟩ := hr.mem hc'
  rw [he] at hid ⊢
  exact h c hc hid

end Tables.Inactive

section Withdrawn

variable {kind : StoreKind} {engine : SearchEngine} {env : Env}
  {w w' : World (kind.backend engine).State} {chunkId : String}

theorem Completes.inactive {α : Type} {cs : List RepoCall} {V : α → Prop} {r : Except Exn α}
    (h : Completes env cs w V r w') (hin : w.rows.Inactive chunkId) (hcs : ∀ c ∈ cs, c.Avoids chunkId) :
    w'.rows.Inactive chunkId := by
  obtain ⟨done, rest, rfl, hrows⟩ := h.rows
  rw [hrows]
  exact hin.effects fun c hc => hcs c (List.mem_append_left _ hc)

/-- An ingest draws the identifier of its chunk. -/
theorem FreshOutcome.inactive {service : DomainService} {message : InboundMessage} {source : String}
    {now : DateTime} {r : Except Exn IngestResult}
    (h : FreshOutcome env service message source now w r w') (hdrawn : Drawn env.uuid w.draws chunkId)
    (hin : w.rows.Inactive chunkId) : w'.rows.Inactive chunkId := by
  have hcalls : ∀ (parsed : ParsedNote) {noteId newId : String}, NewIds env w noteId newId →
      ∀ c ∈ (revision w.rows message source now parsed noteId newId).calls message,
        c.Avoids chunkId := by
    intro parsed noteId newId hids
    refine Revision.forall_mem_calls trivial (fun _ => trivial) trivial (fun x hx => ?_) fun _ =>
      ⟨trivial, nofun⟩
    rw [((Revision.mem_chunks rfl).mp hx).2]
    exact (hids.2.ne env.uuid_injective hdrawn).symm
  cases h with
  | removed hroute hc =>
    exact hc.inactive hin (forall_mem_lookups trivial (fun _ => trivial)
      (forall_mem_flipCalls fun _ => ⟨trivial, nofun⟩))
  | unparsed => exact hin
  | stopped hroute hparse hids hunused hc => exact hc.inactive hin (hcalls _ hids)
  | @saved parsed _ _ _ _ _ hroute hparse hids hunused hp ho =>
    have hsaved := hin.effects (hcalls parsed hids)
    rw [← hp.rows] at hsaved
    exact hsaved.restatused ho.restatused

theorem IngestOutcome.inactive {service : DomainService} {message : InboundMessage}
    {r : Except Exn IngestResult} (h : IngestOutcome env service message w r w')
    (hdrawn : Drawn env.uuid w.draws chunkId) (hin : w.rows.Inactive chunkId) :
    w'.rows.Inactive chunkId := by
  have hfirst : ∀ {s : SourceMessage} {w₁ : World (kind.backend engine).State},
      Path env w [.getOrCreateSourceMessage s] w₁ → w₁.rows.Inactive chunkId := by
    intro s w₁ hp
    rw [hp.rows]
    exact hin.effects fun c hc => by rw [List.mem_singleton.mp hc]; trivial
  cases h with
  | refused hl hr =>
    rw [hr.rows, hl.rows]
    exact hin
  | replayed hexisting hs hp hc =>
    refine hc.inactive (hfirst hp) fun c hcm => ?_
    unfold rebuildCalls at hcm
    split at hcm
    · cases hcm
    · rcases List.mem_cons.mp hcm with rfl | hcm
      · trivial
      · obtain ⟨_, -, rfl⟩ := List.mem_map.mp hcm
        trivial
  | fresh hnone hunused hp ho => exact ho.inactive (hdrawn.mono hp.draws) (hfirst hp)

/-- A dispatched note is an ingest. -/
theorem exec_dispatchNote (dispatcher : Dispatcher) (message : InboundMessage)
    (w : World (kind.backend engine).State) :
    ((dispatcher.dispatchNote message).exec (kind.backend engine) env w).2 =
      ((dispatcher.domain.ingest { message with
        payload := normalizeNotePayload message.payload message.receivedAt.date }).exec
        (kind.backend engine) env w).2 := by
  unfold Dispatcher.dispatchNote
  dsimp only
  generalize normalizeNotePayload message.payload message.receivedAt.date = payload
  cases hr : (dispatcher.domain.ingest { message with payload := payload }).exec
      (kind.backend engine) env w with
  | mk r w' =>
    cases r with
    | error e => rw [Proc.exec_bind_error hr]
    | ok result =>
      rw [Proc.exec_bind_ok hr]
      cases formatIngestReply result <;> rfl

theorem exec_dispatchDraft (dispatcher : Dispatcher) (message : InboundMessage)
    (w : World (kind.backend engine).State) :
    ((dispatcher.dispatchDraft message).exec (kind.backend engine) env w).2 =
      ((dispatcher.domain.ingest message).exec (kind.backend engine) env w).2 := by
  unfold Dispatcher.dispatchDraft
  cases hr : (dispatcher.domain.ingest message).exec (kind.backend engine) env w with
  | mk r w' =>
    cases r with
    | error e => rw [Proc.exec_bind_error hr]
    | ok result => rw [Proc.exec_bind_ok hr]; rfl

/-- A request names no active chunk by an identifier that was drawn before and names none. -/
theorem Operation.inactive (hs : Sound env w) (hdrawn : Drawn env.uuid w.draws chunkId)
    (hin : w.rows.Inactive chunkId) (o : Operation) :
    (o.run (kind.backend engine) env w).rows.Inactive chunkId := by
  obtain ⟨-, es, -, ht⟩ := run_spec hs o
  have hkeep : (∀ c T, c.Guard T → o.Promise env w.rows (.repo c) T → c.Avoids chunkId) →
      (o.run (kind.backend engine) env w).rows.Inactive chunkId := fun hP =>
    (ht.keeps (I := fun T => T.Inactive chunkId) (fun c T _ hg _ hp hT => hT.effect (hP c T hg hp)) hin).1
  have hanswer : ∀ {community : String} (c : RepoCall) (T : Tables),
      AnswerCall community (.repo c) T → c.Avoids chunkId := by
    intro community c T h
    cases c with
    | saveEventChunks | markChunk => exact absurd h id
    | _ => trivial
  have hdelete : ∀ {community : String} (c : RepoCall) (T : Tables), c.Guard T →
      DeleteCall community (.repo c) T → c.Avoids chunkId := by
    intro community c T hg h
    cases c with
    | saveEventChunks => exact absurd h id
    | markChunk => exact hg.1
    | _ => trivial
  cases o with
  | ingest service message => exact (ingest_outcome hs service message).inactive hdrawn hin
  | delete chat target community => exact hkeep hdelete
  | retry service community limit =>
    refine hkeep fun c T _ h => ?_
    cases c with
    | saveEventChunks | markChunk => exact absurd h id
    | _ => trivial
  | hardDelete source community =>
    refine hkeep fun c T _ h => ?_
    cases h
    trivial
  | ask | chat => exact hkeep fun c T _ => hanswer c T
  | dispatch dispatcher message =>
    have hcase : ∀ {route : RouteKind}, message.route = route →
        (∀ c T, c.Guard T → DispatchCall env dispatcher message w.rows (.repo c) T → c.Avoids chunkId) →
        (run (kind.backend engine) env w (dispatch dispatcher message)).rows.Inactive chunkId :=
      fun _ hP => hkeep hP
    unfold DispatchCall at hcase
    cases hroute : message.route with
    | note =>
      have hexec : run (kind.backend engine) env w (dispatch dispatcher message) =
          ((dispatcher.dispatchNote message).exec (kind.backend engine) env w).2 := by
        rw [run, Dispatcher.dispatch, hroute]
      rw [hexec, exec_dispatchNote]
      exact (ingest_outcome hs _ _).inactive hdrawn hin
    | draft =>
      have hexec : run (kind.backend engine) env w (dispatch dispatcher message) =
          ((dispatcher.dispatchDraft message).exec (kind.backend engine) env w).2 := by
        rw [run, Dispatcher.dispatch, hroute]
      rw [hexec, exec_dispatchDraft]
      exact (ingest_outcome hs _ _).inactive hdrawn hin
    | ask =>
      refine hcase hroute fun c T _ h => ?_
      rw [hroute] at h
      rcases h with h | ⟨_, h, -⟩
      · exact hanswer c T h
      · cases h
    | delete =>
      refine hcase hroute fun c T hg h => ?_
      rw [hroute] at h
      exact hdelete c T hg h
    | chat =>
      refine hcase hroute fun c T _ h => ?_
      rw [hroute] at h
      exact hanswer c T h
    | drafts | export_ =>
      refine hcase hroute fun c T _ h => ?_
      rw [hroute] at h
      have hquiet : QuietCall (.repo c) T := h
      exact @hanswer message.communityId c T hquiet.answerCall
    | sources =>
      refine hcase hroute fun c T _ h => ?_
      rw [hroute] at h
      cases h
    | start | help | clarify | unknown =>
      refine hcase hroute fun c T _ h => ?_
      rw [hroute] at h
      exact absurd h id

/-- Such an identifier names no active chunk after any further requests. -/
theorem withdrawn_run (hs : Sound env w) (hdrawn : Drawn env.uuid w.draws chunkId)
    (hin : w.rows.Inactive chunkId) (ops : List Operation) :
    (runAll (kind.backend engine) env w ops).rows.Inactive chunkId := by
  have hrun : Drawn env.uuid (runAll (kind.backend engine) env w ops).draws chunkId ∧
      (runAll (kind.backend engine) env w ops).rows.Inactive chunkId :=
    runAll_induction (I := fun v => Drawn env.uuid v.draws chunkId ∧ v.rows.Inactive chunkId) hs
      ⟨hdrawn, hin⟩ fun o _ v hv hI => ⟨hI.1.mono (o.draws_run _ env v), o.inactive hv hI.1 hI.2⟩
  exact hrun.2

theorem draws_runAll (w : World (kind.backend engine).State) (ops : List Operation) :
    w.draws ≤ (runAll (kind.backend engine) env w ops).draws := by
  induction ops generalizing w with
  | nil => exact le_rfl
  | cons o ops ih => exact (o.draws_run _ env w).trans (ih _)

/-- What further requests cache can be shown to the community on the rows the call finds, and on
those the request starts from. -/
theorem servable_cached_run (hs : Sound env w) (ops : List Operation) :
    ∀ e ∈ (runAll (kind.backend engine) env w ops).log.drop w.tick, ∀ community chunks,
      e.call = .sys (.setLatestSources community chunks) → ∀ c ∈ chunks,
        e.before.Servable community c ∧
          ∃ ops', (runAll (kind.backend engine) env w ops').rows.Servable community c := by
  induction ops using List.reverseRecOn with
  | nil =>
    intro e he
    rw [runAll, List.foldl_nil, World.tick, List.drop_length] at he
    cases he
  | append_singleton ops o ih =>
    obtain ⟨es, hlog, -⟩ := continues_runAll hs ops
    obtain ⟨-, es', hlog', ht⟩ := Operation.run_spec (sound_runAll hs ops) o
    rw [runAll_append]
    intro e he community chunks hcall c hc
    change e ∈ (o.run (kind.backend engine) env
      (runAll (kind.backend engine) env w ops)).log.drop w.tick at he
    rw [hlog', hlog, List.append_assoc, World.tick, List.drop_left] at he
    rcases List.mem_append.mp he with he | he
    · refine ih e ?_ community chunks hcall c hc
      rw [hlog, World.tick, List.drop_left]
      exact he
    · obtain ⟨hstart, hbefore⟩ := Operation.cached_servable ht he hcall c hc
      exact ⟨hbefore, ops, hstart⟩

end Withdrawn

/-! ## Replies -/

/-- What a reader learns of a chunk. -/
def EventChunk.evidence (c : EventChunk) : Evidence := ⟨c.chunkId, c.noteDate, c.chunkText⟩

/-- What an answer shows of the notes : its evidence, and the chunks it cites. -/
def AnswerResult.shown (a : AnswerResult) : List Evidence :=
  a.evidence ++ (Dispatcher.citedChunks a).map EventChunk.evidence

/-- Serving the message shows the evidence : in the answer of `/ask` or `/chat`, or as a chunk of
`/sources`. -/
inductive Dispatcher.Shows (B : Backend) (env : Env) (dispatcher : Dispatcher)
    (message : InboundMessage) (w : World B.State) : Evidence → Prop
  | ask {a : AnswerResult} {e : Evidence} (hroute : message.route = .ask)
      (ha : ((dispatcher.answerAsk message).exec B env w).1 = .ok a) (he : e ∈ a.shown) :
      Shows B env dispatcher message w e
  | chat {service : RoutedChatService} {res : RoutedChatResult} {e : Evidence}
      (hroute : message.route = .chat) (hservice : dispatcher.routedChat = some service)
      (hres : ((service.chat message none).exec B env w).1 = .ok res) (he : e ∈ res.answer.shown) :
      Shows B env dispatcher message w e
  | sources {reply : DispatchResult} {chunks : List EventChunk} {c : EventChunk}
      (hroute : message.route = .sources)
      (hreply : ((dispatcher.dispatch message).exec B env w).1 = .ok reply)
      (hchunks : reply.sourceChunks = some chunks) (hc : c ∈ chunks) :
      Shows B env dispatcher message w c.evidence

/-- The evidence is of a chunk that can be shown to the community. -/
def Tables.Exposes (T : Tables) (community : String) (e : Evidence) : Prop :=
  ∃ c, T.Servable community c ∧ c.evidence = e

theorem AnswerResult.ServableIn.shown {a : AnswerResult} {T : Tables} {community : String}
    (h : a.ServableIn T community) {e : Evidence} (he : e ∈ a.shown) : T.Exposes community e := by
  rcases List.mem_append.mp he with he | he
  · obtain ⟨c, hc, hid, hdate, htext⟩ := h.evidence e he
    exact ⟨c, hc, by rw [EventChunk.evidence, hid, hdate, htext]⟩
  · obtain ⟨c, hc, rfl⟩ := List.mem_map.mp he
    exact ⟨c, h.cited c hc, rfl⟩

section Replies

variable {kind : StoreKind} {engine : SearchEngine} {env : Env}
  {w : World (kind.backend engine).State} {dispatcher : Dispatcher} {message : InboundMessage}

/-- Serving a question leaves the chunks as they are. -/
theorem eventChunks_dispatch (hs : Sound env w)
    (hroute : message.route = .ask ∨ message.route = .chat) :
    ((dispatcher.dispatch message).exec (kind.backend engine) env w).2.rows.eventChunks =
      w.rows.eventChunks := by
  obtain ⟨-, es, -, ht⟩ := Operation.run_spec hs (.dispatch dispatcher message)
  refine (ht.keeps (I := fun T => T.eventChunks = w.rows.eventChunks)
    (fun c T _ _ _ hp hT => Eq.trans ?_ hT) rfl).1
  have hp : DispatchCall env dispatcher message w.rows (.repo c) T := hp
  rcases hroute with hroute | hroute <;> rw [DispatchCall, hroute] at hp
  · exact hp.eventChunks
  · exact AskCall.eventChunks (.inl hp)

/-- What the answer to a question shows can be shown when the reply is given. -/
theorem Dispatcher.Shows.exposes {e : Evidence} (hs : Sound env w)
    (h : dispatcher.Shows (kind.backend engine) env message w e) (hroute : message.route ≠ .sources) :
    ((dispatcher.dispatch message).exec (kind.backend engine) env w).2.rows.Exposes
      message.communityId e := by
  have hmove : (message.route = .ask ∨ message.route = .chat) →
      w.rows.Exposes message.communityId e →
      ((dispatcher.dispatch message).exec (kind.backend engine) env w).2.rows.Exposes
        message.communityId e := by
    rintro hr ⟨c, hc, he⟩
    exact ⟨c, ⟨eventChunks_dispatch hs hr ▸ hc.1, hc.2⟩, he⟩
  cases h with
  | @ask a _ hr ha he =>
    have hanswer := (Proc.exec_of_wp hs
      (@wp_answerAsk kind engine env w dispatcher message hs)).2.2
    rw [ha] at hanswer
    exact hmove (.inl hr) (AskAnswer.servableIn hanswer |>.shown he)
  | @chat service res _ hr hservice hres he =>
    have hend : ChatEnd env service message.communityId (PyText.strip message.payload) w
        ((service.chat message none).exec (kind.backend engine) env w).1
        ((service.chat message none).exec (kind.backend engine) env w).2 :=
      (Proc.exec_of_wp hs (wp_chat hs)).2.2
    rw [hres] at hend
    obtain ⟨routed, w₁, d, rewrite, search, hchat⟩ := hend
    rw [hchat.answer] at he
    exact hmove (.inr hr) (hchat.route.servableIn.shown he)
  | sources hr => exact absurd hr hroute

/-- What `/sources` shows was cached by the latest `/ask` of the community. -/
theorem Dispatcher.Shows.latestAsk {e : Evidence} (hs : Sound env w) (hcached : Cached w)
    (h : dispatcher.Shows (kind.backend engine) env message w e) (hroute : message.route = .sources) :
    ∃ earlier ask chunks, LatestAsk w message.communityId earlier ask chunks ∧
      ∃ c ∈ chunks, c.evidence = e := by
  cases h with
  | ask hr => cases hr.symm.trans hroute
  | chat hr => cases hr.symm.trans hroute
  | @sources reply chunks c hr hreply hchunks hc =>
    have hend : SourcesEnd message w
        ((dispatcher.dispatch message).exec (kind.backend engine) env w).1
        ((dispatcher.dispatch message).exec (kind.backend engine) env w).2 := by
      rw [Dispatcher.dispatch, hr]
      exact (Proc.exec_of_wp (P := fun _ _ => True) hs (wp_dispatchSources fun _ => trivial)).2.2
    rw [hreply] at hend
    obtain ⟨-, hshown⟩ := hend
    rw [hchunks, Option.getD_some] at hshown
    cases hfind : (w.latestSources.find? message.communityId).map Prod.snd with
    | none =>
      rw [hfind] at hshown
      rw [hshown] at hc
      cases hc
    | some chunks' =>
      rw [hfind, Option.getD_some] at hshown
      obtain ⟨earlier, ask, hlatest⟩ := hcached.latestAsk hfind
      exact ⟨earlier, ask, chunks', hlatest, c, hshown ▸ hc, rfl⟩

/-- A chunk with the identifier was there, and no active one has it afterwards. -/
def Tables.Removed (T T' : Tables) (chunkId : String) : Prop :=
  (∃ c ∈ T.eventChunks, c.chunkId = chunkId) ∧ T'.Inactive chunkId

/-- A delete that found a note removed its chunk. -/
theorem delete_removes (hs : Sound env w) {chat target community : String} {outcome : DeleteOutcome}
    (h : ((DomainService.deleteNoteForExternalMessage chat target community).exec
      (kind.backend engine) env w).1 = .ok outcome) (hdeleted : outcome.deleted = true) :
    ∃ n ∈ w.rows.activeNotesFor chat target community, ∀ c ∈ w.rows.eventChunks,
      c.noteId = n.noteId → w.rows.Removed ((DomainService.deleteNoteForExternalMessage chat target
        community).exec (kind.backend engine) env w).2.rows c.chunkId := by
  obtain ⟨n, hfind, hrows⟩ := delete_rows hs h hdeleted
  have hn := Tables.mem_of_getActiveNote hfind
  refine ⟨n, hn, fun c hc hid => ⟨⟨c, hc, rfl⟩, fun c' hc' hid' => ?_⟩⟩
  rw [hrows, Tables.mem_flip_chunks] at hc'
  obtain ⟨d, hd, rfl⟩ := hc'
  by_cases hflip : (w.rows.activeChunkOf community (some n)).map EventChunk.chunkId = some d.chunkId
  · rw [if_pos hflip]
    exact nofun
  · rw [if_neg hflip] at hid' ⊢
    obtain rfl : d = c := Table.eq_of_key hd hc hid'
    intro hactive
    obtain ⟨hnm, hcommunity, -⟩ := Tables.mem_activeNotesFor.mp hn
    have hget := hs.linked.getActiveChunk hnm hd hid hactive
    rw [hcommunity] at hget
    exact hflip (by rw [Tables.activeChunkOf, Option.bind_some, hget, Option.map_some])

/-- A hard delete that succeeded removed the chunks of its source row. -/
theorem hardDelete_removes (hs : Sound env w) {id community : String} {tally : HardDeleteOutcome}
    (h : ((DomainService.hardDeleteSourceMessage id community).exec (kind.backend engine) env w).1 =
      .ok tally) {c : EventChunk} (hc : c ∈ w.rows.eventChunks) (hid : c.sourceMessageId = id) :
    w.rows.Removed ((DomainService.hardDeleteSourceMessage id community).exec (kind.backend engine)
      env w).2.rows c.chunkId := by
  have hout := hardDelete_outcome hs id community
  rw [h] at hout
  have hrows := Returned.rows hout
  refine ⟨⟨c, hc, rfl⟩, fun c' hc' hid' => ?_⟩
  rw [hrows] at hc'
  obtain ⟨hmem, hkept⟩ := Table.mem_discard.mp hc'
  rw [Table.eq_of_key hmem hc hid'] at hkept
  simp [hid] at hkept

/-- In every run, whatever fails in it, what the answers of `/ask` and `/chat` show is of chunks
that are there, active and of the community when the reply is given, and `/sources` shows chunks
that were so when the latest `/ask` of the community cited them. A chunk that some requests removed
is shown by no later answer, nor by `/sources` after a later `/ask`. -/
theorem shown_run (kind : StoreKind) (engine : SearchEngine) (env : Env)
    (earlier removal later : List Operation) (dispatcher : Dispatcher) (message : InboundMessage)
    (e : Evidence) :
    let u := runAll (kind.backend engine) env (World.initial kind engine) earlier
    let v := runAll (kind.backend engine) env u removal
    let w := runAll (kind.backend engine) env v later
    dispatcher.Shows (kind.backend engine) env message w e →
    (message.route ≠ .sources →
      ((dispatcher.dispatch message).exec (kind.backend engine) env w).2.rows.Exposes
        message.communityId e ∧ ¬ u.rows.Removed v.rows e.chunkId) ∧
    (message.route = .sources → ∃ calls ask chunks,
      LatestAsk w message.communityId calls ask chunks ∧ (∃ c ∈ chunks, c.evidence = e) ∧
      ask.before.Exposes message.communityId e ∧
      (v.tick ≤ calls.length → ¬ u.rows.Removed v.rows e.chunkId)) := by
  intro u v w hshows
  have hu : Sound env u := sound_run env earlier
  have hv : Sound env v := sound_runAll hu removal
  have hw : Sound env w := sound_runAll hv later
  have hrun : w = runAll (kind.backend engine) env (World.initial kind engine)
      (earlier ++ removal ++ later) := by
    rw [runAll_append, runAll_append]
  have hdrawn : u.rows.Removed v.rows e.chunkId → Drawn env.uuid v.draws e.chunkId := by
    rintro ⟨⟨c, hc, hid⟩, -⟩
    exact hid ▸ (hu.minted.chunk c hc).mono (draws_runAll u removal)
  refine ⟨fun hroute => ?_, fun hroute => ?_⟩
  · have hexposes := hshows.exposes hw hroute
    refine ⟨hexposes, fun hremoved => ?_⟩
    have hin := withdrawn_run hv (hdrawn hremoved) hremoved.2 (later ++ [.dispatch dispatcher message])
    rw [runAll_append] at hin
    obtain ⟨c, ⟨hc, -, hactive⟩, rfl⟩ := hexposes
    exact hin c hc rfl hactive
  · have hcached : Cached w := hrun ▸ cached_run env _
    obtain ⟨calls, ask, chunks, hlatest, c, hc, rfl⟩ := hshows.latestAsk hw hcached hroute
    obtain ⟨rest, hlog, -⟩ := hlatest.log
    have hask : ask ∈ w.log := hlog ▸ List.mem_append_right _ List.mem_cons_self
    have hservable := servable_cached_run (sound_initial kind engine env)
      (earlier ++ removal ++ later) ask (by rw [← hrun]; exact hask) _ _ hlatest.call c hc
    refine ⟨calls, ask, chunks, hlatest, ⟨c, hc, rfl⟩, ⟨c, hservable.1, rfl⟩, fun hle hremoved => ?_⟩
    have hsince : ask ∈ w.log.drop v.tick := by
      rw [hlog, List.drop_append_of_le_length hle]
      exact List.mem_append_right _ List.mem_cons_self
    obtain ⟨-, ops', hmem, -, hactive⟩ :=
      servable_cached_run hv later ask hsince _ _ hlatest.call c hc
    exact withdrawn_run hv (hdrawn hremoved) hremoved.2 ops' c hmem rfl hactive

end Replies

/-- A note, a question whose answer cites it, and its deletion. -/
def citedThenDeleted (json : JsonModule) : List Operation :=
  [.dispatch (.citing json) (.plain .note "2026-05-09\nwalk" 0),
    .dispatch (.citing json) (.plain .ask "walk" 1),
    .dispatch (.citing json)
      { InboundMessage.plain .delete "" 2 with replyToExternalMessageId := some "message" }]

/-- After the note was deleted, `/sources` still shows its text. -/
theorem sources_show_deleted :
    let B := StoreKind.mock.backend .plain
    let env := Env.citing "confident"
    let w := runAll B env (World.initial .mock .plain) (citedThenDeleted .standard)
    let e : Evidence := ⟨"xx", ⟨2026, 5, 9, by decide⟩, "walk"⟩
    (Dispatcher.citing .standard).Shows B env (.plain .sources "" 3) w e ∧
    ¬ (((Dispatcher.citing .standard).dispatch (.plain .sources "" 3)).exec B env w).2.rows.Exposes
      "community" e := by
  rw [← JsonModule.citing_eq "confident" (by decide +kernel)]
  intro B env w e
  set told : Dispatcher := .citing (.citing "confident")
  constructor
  · have hshown : (((told.dispatch (.plain .sources "" 3)).exec B env w).1.toOption.bind
        DispatchResult.sourceChunks).map (List.map EventChunk.evidence) = some [e] := by
      decide +kernel
    cases hr : ((told.dispatch (.plain .sources "" 3)).exec B env w).1 with
    | error x =>
      rw [hr] at hshown
      cases hshown
    | ok reply =>
      rw [hr] at hshown
      obtain ⟨chunks, hchunks, hmap⟩ := Option.map_eq_some_iff.mp hshown
      obtain ⟨c, hc, he⟩ := List.mem_map.mp (hmap ▸ List.mem_singleton_self e)
      exact he ▸ .sources rfl hr hchunks hc
  · rintro ⟨c, ⟨hc, -, hactive⟩, -⟩
    have hnone : ((told.dispatch (.plain .sources "" 3)).exec B env
        w).2.rows.eventChunks.rows.all (fun c => c.lifecycleState ≠ .active) = true := by
      decide +kernel
    have hne := List.all_eq_true.mp hnone c hc
    simp [hactive] at hne

/-- The answer that cites the note shows it while it is active. -/
theorem shown_run_cited :
    let B := StoreKind.mock.backend .plain
    let env := Env.citing "confident"
    let u := runAll B env (World.initial .mock .plain)
      [.dispatch (.citing .standard) (.plain .note "2026-05-09\nwalk" 0)]
    let e : Evidence := ⟨"xx", ⟨2026, 5, 9, by decide⟩, "walk"⟩
    (((Dispatcher.citing .standard).dispatch (.plain .ask "walk" 1)).exec B env u).2.rows.Exposes
      "community" e := by
  rw [← JsonModule.citing_eq "confident" (by decide +kernel)]
  intro B env u e
  set told : Dispatcher := .citing (.citing "confident")
  have hshown : ((told.answerAsk (.plain .ask "walk" 1)).exec B env
      u).1.toOption.map AnswerResult.shown = some [e, e] := by decide +kernel
  cases hr : ((told.answerAsk (.plain .ask "walk" 1)).exec B env u).1 with
  | error x =>
    rw [hr] at hshown
    cases hshown
  | ok a =>
    rw [hr] at hshown
    have ha : a.shown = [e, e] := Option.some.inj hshown
    exact ((shown_run .mock .plain env [.dispatch told (.plain .note "2026-05-09\nwalk" 0)] [] []
      told (.plain .ask "walk" 1) e (.ask rfl hr (ha ▸ List.mem_cons_self))).1 nofun).1

end DiaryMemory
