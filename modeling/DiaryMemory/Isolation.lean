import DiaryMemory.Frame

/-!
# Retrieval reads one community

Two in-memory stores that hold the same chunks of a community, in the same order, and the same
records of these chunks give the same candidates for it, whatever else they hold
(`Tables.AgreesOn`). Stores with the same rows of the community do, where each record carries the
community of its chunk (`Tables.RecordsOwned`), as in every state of a run; a record that carries
another one is no row of the community, but the dense leg reads it. The legs break ties by the
position of a chunk among the chunks of all communities; as the positions of the chunks of one
community increase in both stores, the order is that of a stable sort
(`map_oldestFirst_position`).

`retrieval_isolated` carries this over the fusion of both legs to `QueryService.retrieve` and to
the prompt.
-/

namespace DiaryMemory

namespace Tables

/-- The same chunks of the community, in the same order, with the same records. -/
structure AgreesOn (community : String) (T T' : Tables) : Prop where
  chunks : (T.eventChunks.rows.filter fun c => c.communityId = community) =
    T'.eventChunks.rows.filter fun c => c.communityId = community
  records : ∀ c ∈ T.eventChunks, c.communityId = community → ∀ modelName,
    T.embeddingRecords.find? (c.chunkId, modelName) = T'.embeddingRecords.find? (c.chunkId, modelName)

variable {T T' : Tables} {community : String}

/-- Every record carries the community of its chunk. -/
def RecordsOwned (T : Tables) : Prop :=
  ∀ r ∈ T.embeddingRecords, ∀ c ∈ T.eventChunks, c.chunkId = r.chunkId →
    r.communityId = c.communityId

/-- In every state of a run each record does. -/
theorem Linked.recordsOwned (hT : T.Linked) : T.RecordsOwned := by
  intro r hr c hc hid
  obtain ⟨d, hd, ho⟩ := hT.record_chunk r hr
  have hdc : d = c := Table.eq_of_key hd hc (ho.chunk.trans hid.symm)
  rw [← ho.community, hdc]

/-- A record of a chunk of the community is a row of the community. -/
theorem RecordsOwned.record_of_rowsOf (hT : T.RecordsOwned)
    (hrecords : (T.rowsOf community).embeddingRecords = (T'.rowsOf community).embeddingRecords)
    {c : EventChunk} (hc : c ∈ T.eventChunks) (hcommunity : c.communityId = community)
    {modelName : String} {r : EmbeddingRecord}
    (h : T.embeddingRecords.find? (c.chunkId, modelName) = some r) :
    T'.embeddingRecords.find? (c.chunkId, modelName) = some r := by
  obtain ⟨hr, hkey⟩ := Table.find?_eq_some_iff.mp h
  obtain ⟨hid, -⟩ := Prod.mk.inj hkey
  have hmem : r ∈ (T.rowsOf community).embeddingRecords :=
    List.mem_filter.mpr ⟨hr, decide_eq_true ((hT r hr c hc hid.symm).trans hcommunity)⟩
  rw [hrecords] at hmem
  exact Table.find?_eq_some_iff.mpr ⟨(List.mem_filter.mp hmem).1, hkey⟩

/-- Stores whose records carry the community of their chunk agree on a community when they hold
the same rows of it. -/
theorem AgreesOn.of_rowsOf (hT : T.RecordsOwned) (hT' : T'.RecordsOwned)
    (h : T.rowsOf community = T'.rowsOf community) : T.AgreesOn community T' where
  chunks := congrArg CommunityRows.eventChunks h
  records c hc hcommunity modelName := by
    have hrecords := congrArg CommunityRows.embeddingRecords h
    have hc' : c ∈ T'.eventChunks := by
      have hmem : c ∈ (T.rowsOf community).eventChunks :=
        List.mem_filter.mpr ⟨hc, decide_eq_true hcommunity⟩
      rw [h] at hmem
      exact (List.mem_filter.mp hmem).1
    refine Option.ext fun r => ⟨fun hr => ?_, fun hr => ?_⟩
    · exact hT.record_of_rowsOf hrecords hc hcommunity hr
    · exact hT'.record_of_rowsOf hrecords.symm hc' hcommunity hr

/-- The chunks of the community that pass a test are the same. -/
theorem AgreesOn.filter (h : T.AgreesOn community T') {p : EventChunk → Bool}
    (hp : ∀ c, p c = true → c.communityId = community) :
    T.eventChunks.rows.filter p = T'.eventChunks.rows.filter p := by
  have hof : ∀ rows : List EventChunk, rows.filter p =
      (rows.filter fun c => c.communityId = community).filter p := by
    intro rows
    rw [List.filter_filter]
    refine List.filter_congr fun c _ => ?_
    cases hpc : p c with
    | false => rfl
    | true => simp [hp c hpc]
  rw [hof, h.chunks, ← hof]

end Tables

/-- The positions of some rows of a list increase. -/
theorem pairwise_positions {α : Type} :
    ∀ (rows : List α) (n : Nat), (rows.zipIdx n).Pairwise fun x y => x.2 < y.2
  | [], _ => .nil
  | a :: rows, n => by
    rw [List.zipIdx_cons]
    refine List.pairwise_cons.mpr ⟨fun e he => ?_, pairwise_positions rows (n + 1)⟩
    have hle := (List.mem_zipIdx he).1
    omega

namespace MockDomainStore

variable {engine : SearchEngine} {s s' : MockDomainStore} {community modelName : String} {q : Vec}
  {scope : SearchScope}

/-- A compared chunk without its position. -/
def unplaced (x : (ℚ × Nat) × EventChunk) : ℚ × EventChunk := (x.1.1, x.2)

/-- The same chunks with the same records compare alike, wherever they stand. -/
theorem denseRanked_unplaced (engine : SearchEngine) (q : Vec) :
    ∀ {cs cs' : List (EventChunk × Nat)}, cs.map Prod.fst = cs'.map Prod.fst →
      (∀ c ∈ cs.map Prod.fst, s.embeddingRecords.find? (c.chunkId, modelName) =
        s'.embeddingRecords.find? (c.chunkId, modelName)) →
      (s.denseRanked engine q modelName cs).map (List.map unplaced) =
        (s'.denseRanked engine q modelName cs').map (List.map unplaced)
  | [], [], _, _ => rfl
  | (c, i) :: cs, (c', j) :: cs', hsame, hrecords => by
    have hboth : c = c' ∧ cs.map Prod.fst = cs'.map Prod.fst := List.cons.inj hsame
    obtain ⟨rfl, htail⟩ := hboth
    have hrest := denseRanked_unplaced engine q htail fun d hd => hrecords d (List.mem_cons_of_mem c hd)
    have hrecord := hrecords c List.mem_cons_self
    rw [denseRanked, denseRanked, ← hrecord]
    cases s.embeddingRecords.find? (c.chunkId, modelName) with
    | none => exact hrest
    | some r =>
      dsimp only
      rw [cosineDistance_eq]
      by_cases hl : q.length = r.embedding.length
      · rw [if_pos hl]
        revert hrest
        cases s.denseRanked engine q modelName cs with
        | error e =>
          cases s'.denseRanked engine q modelName cs' with
          | error e' => exact fun h => h
          | ok out' =>
            intro h
            cases h
        | ok out =>
          cases s'.denseRanked engine q modelName cs' with
          | error e' =>
            intro h
            cases h
          | ok out' =>
            intro h
            have hmap : out.map unplaced = out'.map unplaced := Except.ok.inj h
            change Except.ok (List.map unplaced (ite _ _ _)) = Except.ok (List.map unplaced (ite _ _ _))
            split
            · exact h
            · rw [List.map_cons, List.map_cons, hmap]
              rfl
      · rw [if_neg hl]
        rfl

/-- The ranking of compared chunks does not depend on where they stand. -/
theorem ranked_unplaced {n : Nat} {out out' : List ((ℚ × Nat) × EventChunk)}
    (hout : out.Pairwise fun x y => x.1.2 < y.1.2) (hout' : out'.Pairwise fun x y => x.1.2 < y.1.2)
    (h : out.map unplaced = out'.map unplaced) :
    ((oldestFirst (fun e => toLex e.1) out).take n).map Prod.snd =
      ((oldestFirst (fun e => toLex e.1) out').take n).map Prod.snd := by
  have hsorted : ∀ out : List ((ℚ × Nat) × EventChunk),
      (out.Pairwise fun x y => x.1.2 < y.1.2) →
      ((oldestFirst (fun e => toLex e.1) out).take n).map Prod.snd =
        ((oldestFirst Prod.fst (out.map unplaced)).take n).map Prod.snd := by
    intro out hout
    rw [← map_oldestFirst_position Prod.fst (f := unplaced) hout, ← List.map_take,
      List.map_map]
    rfl
  rw [hsorted out hout, hsorted out' hout', h]

theorem denseCandidates_congr (h : s.AgreesOn community s'.toTables)
    (hscope : scope.community = community) :
    s.denseCandidates engine q modelName scope = s'.denseCandidates engine q modelName scope := by
  subst hscope
  rw [denseCandidates, denseCandidates, requireCommunity_bind, requireCommunity_bind]
  split
  · rfl
  split
  · rfl
  have hmine : ∀ c : EventChunk, (chunkInScope scope c && c.embeddingStatus = .ready) = true →
      c.communityId = scope.community := fun c hc => by
    simp only [chunkInScope, Bool.and_eq_true, decide_eq_true_eq] at hc
    exact hc.1.1.1.1
  set p : EventChunk → Bool := fun c => chunkInScope scope c && c.embeddingStatus = .ready with hp
  have hrows : ((s.eventChunks.rows.zipIdx.filter fun e => p e.1).map Prod.fst) =
      (s'.eventChunks.rows.zipIdx.filter fun e => p e.1).map Prod.fst := by
    rw [map_fst_filter_zipIdx, map_fst_filter_zipIdx]
    exact h.filter hmine
  have hrecords : ∀ c ∈ (s.eventChunks.rows.zipIdx.filter fun e => p e.1).map Prod.fst,
      s.embeddingRecords.find? (c.chunkId, modelName) =
        s'.embeddingRecords.find? (c.chunkId, modelName) := by
    intro c hc
    rw [map_fst_filter_zipIdx] at hc
    obtain ⟨hc, hpc⟩ := List.mem_filter.mp hc
    exact h.records c hc (hmine c hpc) modelName
  have hranked := denseRanked_unplaced engine q hrows hrecords
  have hplaced : ∀ (s : MockDomainStore) {out : List ((ℚ × Nat) × EventChunk)},
      s.denseRanked engine q modelName (s.eventChunks.rows.zipIdx.filter fun e => p e.1) = .ok out →
      out.Pairwise fun x y => x.1.2 < y.1.2 := by
    intro s out hout
    have hpositions := ((pairwise_positions s.eventChunks.rows 0).sublist List.filter_sublist).sublist
      (of_denseRanked hout).1
    exact (List.pairwise_map (f := fun x : (ℚ × Nat) × EventChunk => (x.2, x.1.2))).mp hpositions
  change (s.denseRanked engine q modelName _ >>= _) = (s'.denseRanked engine q modelName _ >>= _)
  revert hranked
  cases hd : s.denseRanked engine q modelName (s.eventChunks.rows.zipIdx.filter fun e => p e.1) with
  | error e =>
    cases hd' : s'.denseRanked engine q modelName
        (s'.eventChunks.rows.zipIdx.filter fun e => p e.1) with
    | error e' =>
      intro heq
      rw [Except.error.inj heq]
    | ok out' =>
      intro heq
      cases heq
  | ok out =>
    cases hd' : s'.denseRanked engine q modelName
        (s'.eventChunks.rows.zipIdx.filter fun e => p e.1) with
    | error e' =>
      intro heq
      cases heq
    | ok out' =>
      intro heq
      exact congrArg Except.ok
        (ranked_unplaced (hplaced s hd) (hplaced s' hd') (Except.ok.inj heq))

theorem sparseCandidates_congr {text : String} (h : s.AgreesOn community s'.toTables)
    (hscope : scope.community = community) :
    s.sparseCandidates engine text scope = s'.sparseCandidates engine text scope := by
  subst hscope
  rw [sparseCandidates, sparseCandidates, requireCommunity_bind, requireCommunity_bind]
  split
  · rfl
  split
  · rfl
  set p : EventChunk → Bool := fun c =>
    chunkInScope scope c && overlap engine text c.chunkText ≠ 0 with hp
  have hmine : ∀ c, p c = true → c.communityId = scope.community := fun c hc => by
    simp only [hp, chunkInScope, Bool.and_eq_true, decide_eq_true_eq] at hc
    exact hc.1.1.1.1
  have hsorted : ∀ s : MockDomainStore,
      ((oldestFirst (fun e : EventChunk × Nat =>
        toLex (-(overlap engine text e.1.chunkText : Int), e.2))
        (s.eventChunks.rows.zipIdx.filter fun e => p e.1)).take scope.limit.toNat).map Prod.fst =
      (oldestFirst (fun c => -(overlap engine text c.chunkText : Int))
        (s.eventChunks.rows.filter p)).take scope.limit.toNat := by
    intro s
    have hpositions := (pairwise_positions s.eventChunks.rows 0).sublist
      (List.filter_sublist (p := fun e => p e.1))
    rw [List.map_take, map_oldestFirst_position
      (fun c : EventChunk => -(overlap engine text c.chunkText : Int)) (f := Prod.fst) hpositions,
      map_fst_filter_zipIdx]
  exact congrArg Except.ok ((hsorted s).trans (by rw [h.filter hmine, ← hsorted s']))

end MockDomainStore

/-! ## The retrieval pass -/

/-- From here on, calls are answered and fail alike in two worlds. -/
structure Alike (env env' : Env) (w w' : World MockDomainStore) : Prop where
  storeFails : ∀ k c, env.storeFails (w.tick + k) c = env'.storeFails (w'.tick + k) c
  embed : ∀ k texts, env.embed (w.tick + k) texts = env'.embed (w'.tick + k) texts

/-- The scope in which a question of the community is looked up. -/
def QueryService.scope (service : QueryService) (community : String)
    (dateRange : Option DateRange) (subjectScope : Option String) : SearchScope :=
  { community, limit := service.candidateK, dateRange, subjectScope }

/-- What the candidates of a question may be : chunks in scope, on the dense leg ready ones with
a record, and no others among the fused. -/
structure RetrievedCandidates.Within (T : Tables) (modelName : String) (scope : SearchScope)
    (found : RetrievedCandidates) : Prop where
  dense : T.DenseResult modelName scope found.dense
  sparse : T.SparseResult scope found.sparse
  merged : ∀ h ∈ found.merged, T.InScope scope h.chunk

section Retrieval

variable {engine : SearchEngine} {env env' : Env} {w w' : World MockDomainStore} {T : Tables}
  {community : String}

/-- The calls of a retrieval pass, and what its legs return. -/
def retrievalContract (T : Tables) (community : String) : Contract Call Reply Unit where
  pre c _ :=
    match c with
    | .sys (.embedQuery _) => True
    | .repo (.denseCandidates _ _ scope) | .repo (.sparseCandidates _ scope) =>
      scope.community = community
    | _ => False
  post c _ r _ :=
    match c, r with
    | .repo (.denseCandidates _ modelName scope), .ok cs => T.DenseResult modelName scope cs
    | .repo (.sparseCandidates _ scope), .ok cs => T.SparseResult scope cs
    | _, _ => True

/-- A repository call, then the rest, against any contract of the calls. -/
theorem wp_call_bind {S α : Type} {C : Contract Call Reply S} {c : RepoCall} {f : RepoReply c → Proc α}
    {Q : Except Exn α → S → Prop} {t : S} (hpre : C.pre (.repo c) t)
    (h : ∀ (r : Except Exn (RepoReply c)) t', C.post (.repo c) t r t' → onValue C f Q r t') :
    wp C (Proc.repo c >>= f) Q t :=
  (wp_bind _ _ _ t).mpr ⟨hpre, h⟩

theorem wp_retrieve_within (service : QueryService) (T : Tables) (community text : String)
    (dateRange : Option DateRange) (subjectScope : Option String) :
    wp (retrievalContract T community) (service.retrieve community text dateRange subjectScope)
      (fun r _ => ∀ found, r = .ok found →
        found.Within T service.embed.modelName (service.scope community dateRange subjectScope))
      () := by
  unfold QueryService.retrieve
  split
  · exact nofun
  refine (wp_bind _ _ _ ()).mpr ⟨trivial, fun (r : Except Exn (List Vec)) _ _ => ?_⟩
  match r with
  | .error e => exact nofun
  | .ok [] => exact nofun
  | .ok (queryEmbedding :: _) =>
    refine wp_call_bind rfl fun (r : Except Exn (List EventChunk)) _ hdense => ?_
    match r, hdense with
    | .error e, _ => exact nofun
    | .ok dense, hdense =>
      refine wp_call_bind rfl fun (r : Except Exn (List EventChunk)) _ hsparse => ?_
      match r, hsparse with
      | .error e, _ => exact nofun
      | .ok sparse, hsparse =>
        obtain ⟨merged, hfusion⟩ := fusion_default [dense, sparse] service.topK
        change wp _ (Proc.ofExcept (reciprocalRankFusion [dense, sparse] service.topK) >>= _) _ _
        rw [hfusion]
        rintro found he
        cases he
        refine ⟨hdense, hsparse, fun h hh => ?_⟩
        obtain ⟨ranking, hranking, hc⟩ := mem_of_mem_fusion hfusion hh
        rcases List.mem_cons.mp hranking with rfl | hranking
        · exact (hdense.2 _ hc).1
        · rw [List.mem_singleton.mp hranking] at hc
          exact hsparse.2 _ hc

/-- Two worlds whose stores agree on the community and which answer alike. -/
def Alongside (env env' : Env) (T : Tables) (community : String) (v v' : World MockDomainStore) :
    Prop :=
  v.store.toTables = T ∧ T.AgreesOn community v'.store.toTables ∧ Alike env env' v v'

theorem Alike.record (h : Alike env env' w w') (before before' : Tables) (c : Call) (b : Bool) :
    Alike env env' (w.record before c b) (w'.record before' c b) := by
  have htick : ∀ (w : World MockDomainStore) before k,
      (w.record before c b).tick + k = w.tick + (k + 1) := by
    intro w before k
    simp only [World.tick, World.record, List.length_append, List.length_singleton]
    omega
  refine ⟨fun k c => ?_, fun k texts => ?_⟩
  · rw [htick, htick]
    exact h.storeFails (k + 1) c
  · rw [htick, htick]
    exact h.embed (k + 1) texts

/-- A read of the community is answered alike. -/
theorem serve_read_alongside (h : Alongside env env' T community w w') {c : RepoCall}
    {r r' : Except Exn (RepoReply c)}
    (hr : MockDomainStore.handle engine c w.store = (r, w.store))
    (hr' : MockDomainStore.handle engine c w'.store = (r', w'.store)) (he : r = r') :
    let B := StoreKind.mock.backend engine
    (serve B env (.repo c) w).1 = (serve B env' (.repo c) w').1 ∧
      Alongside env env' T community (serve B env (.repo c) w).2 (serve B env' (.repo c) w').2 ∧
      ((serve B env (.repo c) w).1 = r ∨ ∃ e, (serve B env (.repo c) w).1 = .error e) := by
  intro B
  subst he
  obtain ⟨hT, hagree, halike⟩ := h
  have hfails := halike.storeFails 0 c
  rw [Nat.add_zero, Nat.add_zero] at hfails
  have hserve : ∀ (env : Env) (w : World B.State) (f : Option Exn), env.storeFails w.tick c = f →
      B.handle c w.store = (r, w.store) → serve B env (.repo c) w = (f.elim r .error,
        w.record (B.tables w.store) (.repo c) (isRaise (f.elim r .error))) := by
    intro env w f hf hr
    simp only [serve, respond, serveRepo, hr, hf]
    cases f <;> rfl
  rw [hserve env w _ rfl hr, hserve env' w' _ hfails.symm hr']
  have hor : ∀ f : Option Exn, f.elim r .error = r ∨ ∃ e, f.elim r .error = .error e := by
    rintro (_ | e)
    · exact .inl rfl
    · exact .inr ⟨e, rfl⟩
  exact ⟨rfl, ⟨hT, hagree, halike.record _ _ _ _⟩, hor _⟩

theorem serve_alongside (h : Alongside env env' T community w w') {c : Call}
    (hpre : (retrievalContract T community).pre c ()) :
    let B := StoreKind.mock.backend engine
    (serve B env c w).1 = (serve B env' c w').1 ∧
      Alongside env env' T community (serve B env c w).2 (serve B env' c w').2 ∧
      (retrievalContract T community).post c () (serve B env c w).1 () := by
  intro B
  have hT : w.store.toTables = T := h.1
  have hagree : w.store.AgreesOn community w'.store.toTables := hT ▸ h.2.1
  match c, hpre with
  | .sys (.embedQuery text), _ =>
    have hembed := h.2.2.embed 0 [text]
    exact ⟨hembed, ⟨hT, h.2.1, h.2.2.record _ _ _ _⟩, trivial⟩
  | .repo (.denseCandidates q modelName scope), hscope =>
    obtain ⟨hreply, halong, hr⟩ := serve_read_alongside h
      (c := .denseCandidates q modelName scope) rfl rfl
      (MockDomainStore.denseCandidates_congr hagree hscope)
    refine ⟨hreply, halong, ?_⟩
    rcases hr with hr | ⟨e, hr⟩
    · rw [hr]
      cases hcs : w.store.denseCandidates engine q modelName scope with
      | error e => trivial
      | ok cs =>
        have hserves := @MockDomainStore.serves_denseCandidates engine w.store q modelName scope
        rw [hcs] at hserves
        exact hT ▸ (hserves.returned cs rfl).2.1
    · rw [hr]
      trivial
  | .repo (.sparseCandidates text scope), hscope =>
    obtain ⟨hreply, halong, hr⟩ := serve_read_alongside h
      (c := .sparseCandidates text scope) rfl rfl
      (MockDomainStore.sparseCandidates_congr hagree hscope)
    refine ⟨hreply, halong, ?_⟩
    rcases hr with hr | ⟨e, hr⟩
    · rw [hr]
      cases hcs : w.store.sparseCandidates engine text scope with
      | error e => trivial
      | ok cs =>
        have hserves := @MockDomainStore.serves_sparseCandidates engine w.store text scope
        rw [hcs] at hserves
        exact hT ▸ (hserves.returned cs rfl).2.1
    · rw [hr]
      trivial

end Retrieval

/-- On in-memory stores with the same rows of a community, whose records carry the community of
their chunk, both legs, the fused list, and so the evidence and the prompt made of it, are the same
for the community. They consist of its active chunks in the date range and subject scope, on the
dense leg ready ones with a record, and the prompt is never refused for chunks of several
communities. -/
theorem retrieval_isolated (engine : SearchEngine) {community : String} {s s' : MockDomainStore}
    (hs : s.toTables.RecordsOwned) (hs' : s'.toTables.RecordsOwned)
    (hrows : s.toTables.rowsOf community = s'.toTables.rowsOf community) :
    (∀ q modelName scope, scope.community = community →
      s.denseCandidates engine q modelName scope = s'.denseCandidates engine q modelName scope ∧
      ∀ cs, s.denseCandidates engine q modelName scope = .ok cs → s.DenseResult modelName scope cs) ∧
    (∀ text scope, scope.community = community →
      s.sparseCandidates engine text scope = s'.sparseCandidates engine text scope ∧
      ∀ cs, s.sparseCandidates engine text scope = .ok cs → s.SparseResult scope cs) ∧
    ∀ (service : QueryService) (env env' : Env) (w w' : World MockDomainStore), w.store = s →
      w'.store = s' → Alike env env' w w' → ∀ text dateRange subjectScope,
      let B := StoreKind.mock.backend engine
      let r := ((service.retrieve community text dateRange subjectScope).exec B env w).1
      let r' := ((service.retrieve community text dateRange subjectScope).exec B env' w').1
      r = r' ∧ ∀ found, r = .ok found →
        found.Within s.toTables service.embed.modelName
          (service.scope community dateRange subjectScope) ∧
        ∀ query, ∃ prompt,
          buildAnswerPrompt service.json (assembleAnswerContext query found.merged) = .ok prompt := by
  have h : s.AgreesOn community s'.toTables := .of_rowsOf hs hs' hrows
  refine ⟨fun q modelName scope hscope => ?_, fun text scope hscope => ?_, ?_⟩
  · refine ⟨MockDomainStore.denseCandidates_congr h hscope, fun cs hcs => ?_⟩
    have hserves := @MockDomainStore.serves_denseCandidates engine s q modelName scope
    rw [hcs] at hserves
    exact (hserves.returned cs rfl).2.1
  · refine ⟨MockDomainStore.sparseCandidates_congr h hscope, fun cs hcs => ?_⟩
    have hserves := @MockDomainStore.serves_sparseCandidates engine s text scope
    rw [hcs] at hserves
    exact (hserves.returned cs rfl).2.1
  · intro service env env' w w' hw hw' halike text dateRange subjectScope B r r'
    subst hw hw'
    have hstep : ∀ (c : Call) (v v' : World MockDomainStore),
        Alongside env env' w.store.toTables community v v' →
        (retrievalContract w.store.toTables community).pre c () →
        (serve B env c v).1 = (serve B env' c v').1 ∧
          Alongside env env' w.store.toTables community (serve B env c v).2 (serve B env' c v').2 ∧
          (retrievalContract w.store.toTables community).post c () (serve B env c v).1 () :=
      fun c v v' hv hpre => serve_alongside hv hpre
    obtain ⟨hsame, -, hwithin⟩ := Prog.run_lockstep hstep
      (service.retrieve community text dateRange subjectScope).run ⟨rfl, h, halike⟩
      (wp_retrieve_within service w.store.toTables community text dateRange subjectScope)
    refine ⟨hsame, fun found hfound => ⟨hwithin found hfound, fun query => ?_⟩⟩
    have hone : ∀ c ∈ (assembleAnswerContext query found.merged).orderedChunks,
        c.communityId = community := by
      intro c hc
      obtain ⟨hit, hhit, rfl⟩ := List.mem_map.mp hc
      exact ((hwithin found hfound).merged hit hhit).servable.2.1
    rw [buildAnswerPrompt, checkSingleCommunity_ok service.json hone]
    exact ⟨_, rfl⟩

/-- A chunk of a community beside one of another. -/
theorem retrieval_isolated_beside_foreign :
    let chunk : EventChunk := ⟨"chunk", "note", "source", "community", "user",
      ⟨2026, 5, 9, by decide⟩, 0, "walk", Env.steady.now 0, .ready, none, .active, none⟩
    let foreign : EventChunk := { chunk with chunkId := "foreign", communityId := "other" }
    let record : EmbeddingRecord := ⟨"record", "chunk", "source", "community", "model", 1, [1],
      Env.steady.now 0⟩
    let s : MockDomainStore :=
      { eventChunks := Table.empty.put chunk, embeddingRecords := Table.empty.put record }
    let s' : MockDomainStore := { s with eventChunks := (Table.empty.put foreign).put chunk }
    let scope : SearchScope := ⟨"community", 1, none, none⟩
    s.denseCandidates .plain [1] "model" scope = s'.denseCandidates .plain [1] "model" scope ∧
      s'.denseCandidates .plain [1] "model" scope = .ok [chunk] := by
  intro chunk foreign record s s' scope
  have howned : s.toTables.RecordsOwned := by
    intro r hr c hc hid
    rw [List.mem_singleton.mp hr, List.mem_singleton.mp hc]
  have howned' : s'.toTables.RecordsOwned := by
    intro r hr c hc hid
    rw [List.mem_singleton.mp hr] at hid ⊢
    rcases List.mem_cons.mp hc with rfl | hc
    · exact absurd hid (by decide : "foreign" ≠ "chunk")
    · rw [List.mem_singleton.mp hc]
  exact ⟨((retrieval_isolated .plain howned howned' rfl).1 [1] "model" scope rfl).1,
    by decide +kernel⟩

/-- A record that carries another community than its chunk : the stores hold the same rows of the
community, and the dense leg finds the chunk in one of them. -/
theorem retrieval_not_isolated :
    let chunk : EventChunk := ⟨"chunk", "note", "source", "community", "user",
      ⟨2026, 5, 9, by decide⟩, 0, "walk", Env.steady.now 0, .ready, none, .active, none⟩
    let stray : EmbeddingRecord := ⟨"record", "chunk", "source", "other", "model", 1, [1],
      Env.steady.now 0⟩
    let s : MockDomainStore := { eventChunks := Table.empty.put chunk }
    let s' : MockDomainStore := { s with embeddingRecords := Table.empty.put stray }
    let scope : SearchScope := ⟨"community", 1, none, none⟩
    s.toTables.rowsOf "community" = s'.toTables.rowsOf "community" ∧
      s.denseCandidates .plain [1] "model" scope = .ok [] ∧
      s'.denseCandidates .plain [1] "model" scope = .ok [chunk] := by
  intro chunk stray s s' scope
  exact ⟨rfl, by decide +kernel, by decide +kernel⟩

end DiaryMemory
