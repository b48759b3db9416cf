import DiaryMemory.Fusion
import DiaryMemory.Isolation
import DiaryMemory.Parsing

/-!
# The legs of the in-memory store

A leg of `MockDomainStore` filters before it limits : with a limit it returns the first chunks of
the unlimited, unscoped ranking that the date range and the subject scope keep (`FiltersFirst`).
The tie-break by the position in the store and the stable sort make this hold for every number of
chunks.

The distance of the dense leg is any function into a linear order (`denseCandidatesOver`); the
leg of `DiaryMemory.MockStore` is its case of `cosineDistance`, which may raise
(`denseCandidates_eq_over`).
-/

namespace DiaryMemory

/-! ## Filters -/

/-- The chunks the filters of the scope keep. -/
def SearchScope.keeps (scope : SearchScope) (c : EventChunk) : Bool :=
  chunkInDateRange c scope.dateRange && chunkInSubjectScope c scope.subjectScope

/-- A scope of the community without filters. -/
def SearchScope.whole (community : String) (n : Nat) : SearchScope := { community, limit := n }

/-- A leg over a store of `rows` chunks that filters before it limits. A limit of `rows` or more
is no limit. -/
structure FiltersFirst (rows : Nat) (leg : SearchScope → Except Exn (List EventChunk)) : Prop where
  /-- The first chunks of the unlimited, unscoped ranking that the filters keep. -/
  limited : ∀ (scope : SearchScope) (n : Nat), rows ≤ n → leg scope =
    (leg (.whole scope.community n)).map fun all =>
      (all.filter scope.keeps).take scope.limit.toNat
  /-- A range without bounds is no range. -/
  unbounded : ∀ (scope : SearchScope) (range : DateRange), range.start = none → range.stop = none →
    leg { scope with dateRange := some range } = leg { scope with dateRange := none }
  /-- The filters may be applied one after the other, in any order. -/
  commute : ∀ scope : SearchScope, (rows : Int) ≤ scope.limit →
    leg scope = (leg { scope with subjectScope := none }).map
        (List.filter fun c => chunkInSubjectScope c scope.subjectScope) ∧
      leg scope = (leg { scope with dateRange := none }).map
        (List.filter fun c => chunkInDateRange c scope.dateRange)
  /-- A narrower filter selects from the unlimited result of the wider one. -/
  narrower : ∀ scope wider : SearchScope, wider.community = scope.community →
    (rows : Int) ≤ wider.limit → (∀ c, scope.keeps c = true → wider.keeps c = true) →
    ∀ found all, leg scope = .ok found → leg wider = .ok all → found.Sublist all
  /-- No chunk appears twice. -/
  distinct : ∀ scope found, leg scope = .ok found → (found.map EventChunk.chunkId).Nodup

theorem keeps_whole (community : String) (n : Nat) (c : EventChunk) :
    (SearchScope.whole community n).keeps c = true := rfl

/-- A leg takes from one ranking of each community what the filters keep. -/
structure RankedLeg (rows : Nat) (leg : SearchScope → Except Exn (List EventChunk))
    (ranked : String → List EventChunk) : Prop where
  refused : ∃ e, ∀ scope, scope.community = "" → leg scope = .error e
  taken : ∀ scope, scope.community ≠ "" →
    leg scope = .ok (((ranked scope.community).filter scope.keeps).take scope.limit.toNat)
  length : ∀ community, (ranked community).length ≤ rows
  distinct : ∀ community, ((ranked community).map EventChunk.chunkId).Nodup

namespace RankedLeg

variable {rows : Nat} {leg : SearchScope → Except Exn (List EventChunk)}
  {ranked : String → List EventChunk}

/-- Without a limit, all that the filters keep is returned. -/
theorem unlimited (h : RankedLeg rows leg ranked) {scope : SearchScope}
    (hc : scope.community ≠ "") (hlimit : (rows : Int) ≤ scope.limit) :
    leg scope = .ok ((ranked scope.community).filter scope.keeps) := by
  have hlength := (List.length_filter_le scope.keeps _).trans (h.length scope.community)
  rw [h.taken scope hc, List.take_of_length_le (by omega)]

theorem whole (h : RankedLeg rows leg ranked) {community : String} (hc : community ≠ "") {n : Nat}
    (hn : rows ≤ n) : leg (.whole community n) = .ok (ranked community) := by
  have hc' : (SearchScope.whole community n).community ≠ "" := hc
  rw [h.unlimited hc' (Int.ofNat_le.mpr hn)]
  exact congrArg Except.ok (List.filter_eq_self.mpr fun c _ => keeps_whole community n c)

/-- A leg sees of its filters only what they keep. -/
theorem congr (h : RankedLeg rows leg ranked) (scope scope' : SearchScope)
    (hcommunity : scope'.community = scope.community) (hlimit : scope'.limit = scope.limit)
    (hkeeps : scope'.keeps = scope.keeps) : leg scope' = leg scope := by
  by_cases hc : scope.community = ""
  · obtain ⟨e, he⟩ := h.refused
    rw [he scope hc, he scope' (hcommunity.trans hc)]
  · rw [h.taken scope hc, h.taken scope' (hcommunity ▸ hc), hcommunity, hlimit, hkeeps]

/-- Two filters, one after the other. -/
theorem commutes (h : RankedLeg rows leg ranked) (scope scope' : SearchScope)
    (hcommunity : scope'.community = scope.community) (hlimit : (rows : Int) ≤ scope.limit)
    (hlimit' : (rows : Int) ≤ scope'.limit) {p : EventChunk → Bool}
    (hp : ∀ c, scope.keeps c = (p c && scope'.keeps c)) :
    leg scope = (leg scope').map (List.filter p) := by
  by_cases hc : scope.community = ""
  · obtain ⟨e, he⟩ := h.refused
    rw [he scope hc, he scope' (hcommunity.trans hc)]
    rfl
  · rw [h.unlimited hc hlimit, h.unlimited (hcommunity ▸ hc) hlimit', hcommunity, funext hp]
    exact congrArg Except.ok (List.filter_filter ..).symm

theorem filtersFirst (h : RankedLeg rows leg ranked) : FiltersFirst rows leg := by
  obtain ⟨e, he⟩ := h.refused
  refine ⟨fun scope n hn => ?_, fun scope range hstart hstop => ?_, fun scope hlimit => ⟨?_, ?_⟩,
    fun scope wider hcommunity hlimit hkeeps found all hfound hwider => ?_,
    fun scope found hfound => ?_⟩
  · by_cases hc : scope.community = ""
    · rw [he scope hc, he (.whole scope.community n) hc]
      rfl
    · rw [h.taken scope hc, h.whole hc hn]
      rfl
  · refine h.congr _ _ rfl rfl (funext fun c => ?_)
    simp [SearchScope.keeps, chunkInDateRange, hstart, hstop]
  · refine h.commutes scope { scope with subjectScope := none } rfl hlimit hlimit fun c => ?_
    rw [SearchScope.keeps, SearchScope.keeps, Bool.and_comm, chunkInSubjectScope.eq_1,
      Bool.and_true]
  · refine h.commutes scope { scope with dateRange := none } rfl hlimit hlimit fun c => ?_
    rw [SearchScope.keeps, SearchScope.keeps, chunkInDateRange.eq_1, Bool.true_and]
  · by_cases hc : scope.community = ""
    · rw [he scope hc] at hfound
      cases hfound
    · rw [h.taken scope hc] at hfound
      rw [h.unlimited (hcommunity ▸ hc) hlimit, hcommunity] at hwider
      cases hfound
      cases hwider
      refine (List.take_sublist _ _).trans ?_
      exact List.monotone_filter_right _ hkeeps
  · by_cases hc : scope.community = ""
    · rw [he scope hc] at hfound
      cases hfound
    · rw [h.taken scope hc] at hfound
      cases hfound
      exact (h.distinct scope.community).sublist
        (((List.take_sublist _ _).trans List.filter_sublist).map _)

end RankedLeg

/-- A selection of the sorted rows is the sorted selection. -/
theorem filter_oldestFirst {α K : Type} [LinearOrder K] (key : α → K) (p : α → Bool)
    (rows : List α) : (oldestFirst key rows).filter p = oldestFirst key (rows.filter p) :=
  Ranking.filter_insertionSort p rows

namespace MockDomainStore

variable (store : MockDomainStore)

/-- The number of stored chunks. -/
def chunkCount : Nat := store.eventChunks.rows.length

/-- The active chunks of a community. -/
def activeChunks (community : String) : List EventChunk :=
  store.eventChunks.rows.filter fun c => c.communityId = community && c.lifecycleState = .active

theorem filter_chunkInScope (scope : SearchScope) (p : EventChunk → Bool) :
    store.eventChunks.rows.filter (fun c => chunkInScope scope c && p c) =
      ((store.activeChunks scope.community).filter p).filter scope.keeps := by
  rw [activeChunks, List.filter_filter, List.filter_filter]
  refine List.filter_congr fun c _ => ?_
  rw [chunkInScope, SearchScope.keeps]
  ac_rfl

theorem nodup_activeChunks (community : String) :
    ((store.activeChunks community).map EventChunk.chunkId).Nodup :=
  store.eventChunks.nodup.sublist (List.filter_sublist.map EventChunk.chunkId)

theorem length_activeChunks (community : String) :
    (store.activeChunks community).length ≤ store.chunkCount :=
  List.length_filter_le _ _

/-! ## The sparse leg -/

/-- The ranking of the sparse leg : the active chunks that share words with the query, those with
the most first. -/
def sparseRanking (engine : SearchEngine) (queryText community : String) : List EventChunk :=
  oldestFirst (fun c => -(overlap engine queryText c.chunkText : Int))
    ((store.activeChunks community).filter fun c => overlap engine queryText c.chunkText ≠ 0)

theorem sparseCandidates_rankedLeg (engine : SearchEngine) (queryText : String) :
    RankedLeg store.chunkCount (store.sparseCandidates engine queryText)
      (store.sparseRanking engine queryText) := by
  refine ⟨⟨.valueError "community_id is required (Runtime invariant R-3)", fun scope hc => ?_⟩,
    fun scope hc => ?_, fun community => ?_, fun community => ?_⟩
  · rw [sparseCandidates, requireCommunity_bind, if_pos hc]
  · rw [sparseCandidates, requireCommunity_bind, if_neg hc]
    split
    · next hlimit =>
      rw [Int.toNat_of_nonpos hlimit, List.take_zero]
      rfl
    · refine congrArg Except.ok ?_
      set p : EventChunk → Bool := fun c =>
        chunkInScope scope c && overlap engine queryText c.chunkText ≠ 0 with hp
      have hpositions := (pairwise_positions store.eventChunks.rows 0).sublist
        (List.filter_sublist (p := fun e => p e.1))
      rw [List.map_take, map_oldestFirst_position
        (fun c : EventChunk => -(overlap engine queryText c.chunkText : Int)) (f := Prod.fst)
        hpositions, map_fst_filter_zipIdx, hp, filter_chunkInScope, ← filter_oldestFirst]
      rfl
  · rw [sparseRanking, oldestFirst, List.length_insertionSort]
    exact (List.length_filter_le _ _).trans (store.length_activeChunks community)
  · refine ((List.perm_insertionSort _ _).map _).nodup_iff.mpr ?_
    exact (store.nodup_activeChunks community).sublist (List.filter_sublist.map _)

/-! ## The dense leg -/

section Dense

variable {D : Type} [LinearOrder D] (distance : Vec → Vec → Except Exn D) (threshold : D)
  (queryEmbedding : Vec) (modelName : String)

/-- `denseRanked`, the distance any function into a linear order that may raise. -/
def denseRankedOver : List (EventChunk × Nat) → Except Exn (List ((D × Nat) × EventChunk))
  | [] => pure []
  | (c, index) :: cs =>
    match store.embeddingRecords.find? (c.chunkId, modelName) with
    | none => denseRankedOver cs
    | some record => do
      let d ← distance queryEmbedding record.embedding
      let rest ← denseRankedOver cs
      pure (if d ≥ threshold then rest else ((d, index), c) :: rest)

/-- `dense_candidates`, the distance any function into a linear order that may raise. -/
def denseCandidatesOver (scope : SearchScope) : Except Exn (List EventChunk) := do
  requireCommunity scope.community
  if scope.limit ≤ 0 then pure []
  else
    let eligible := store.eventChunks.rows.zipIdx.filter fun e =>
      chunkInScope scope e.1 && e.1.embeddingStatus = .ready
    let ranked ← store.denseRankedOver distance threshold queryEmbedding modelName eligible
    pure (((oldestFirst (fun e => toLex e.1) ranked).take scope.limit.toNat).map Prod.snd)

theorem denseRanked_eq_over (engine : SearchEngine) : ∀ cs : List (EventChunk × Nat),
    store.denseRanked engine queryEmbedding modelName cs =
      store.denseRankedOver (cosineDistance engine) denseThreshold queryEmbedding modelName cs
  | [] => rfl
  | (c, index) :: cs => by
    have ih := denseRanked_eq_over engine cs
    cases hfound : store.embeddingRecords.find? (c.chunkId, modelName) with
    | none => simp only [denseRanked, denseRankedOver, hfound, ih]
    | some record => simp only [denseRanked, denseRankedOver, hfound, ih]

/-- The dense leg of the store is the leg over the cosine distance. -/
theorem denseCandidates_eq_over (engine : SearchEngine) (scope : SearchScope) :
    store.denseCandidates engine queryEmbedding modelName scope =
      store.denseCandidatesOver (cosineDistance engine) denseThreshold queryEmbedding modelName
        scope := by
  simp only [denseCandidates, denseCandidatesOver, denseRanked_eq_over]

/-- The distance of a chunk, if it is below the threshold. -/
def near (c : EventChunk) : Option D :=
  (store.embeddingRecords.find? (c.chunkId, modelName)).bind fun record =>
    (distance queryEmbedding record.embedding).toOption.filter fun d => ¬ d ≥ threshold

/-- The distance to the record of every one of these chunks can be taken. -/
def Measured (cs : List EventChunk) : Prop :=
  ∀ c ∈ cs, ∀ record, store.embeddingRecords.find? (c.chunkId, modelName) = some record →
    ∃ d, distance queryEmbedding record.embedding = .ok d

/-- The chunks below the threshold, with their distances. -/
def nearest (cs : List EventChunk) : List (D × EventChunk) :=
  cs.filterMap fun c =>
    (store.near distance threshold queryEmbedding modelName c).map fun d => (d, c)

/-- The ranking of the dense leg : the active, ready chunks below the threshold, the nearest
first. -/
def denseRanking (community : String) : List EventChunk :=
  (oldestFirst Prod.fst (store.nearest distance threshold queryEmbedding modelName
    ((store.activeChunks community).filter fun c => c.embeddingStatus = .ready))).map Prod.snd

variable {store distance threshold queryEmbedding modelName}

theorem near_of_none {c : EventChunk}
    (h : store.embeddingRecords.find? (c.chunkId, modelName) = none) :
    store.near distance threshold queryEmbedding modelName c = none := by
  rw [near, h, Option.bind_none]

theorem near_of_ok {c : EventChunk} {record : EmbeddingRecord} {d : D}
    (h : store.embeddingRecords.find? (c.chunkId, modelName) = some record)
    (hd : distance queryEmbedding record.embedding = .ok d) :
    store.near distance threshold queryEmbedding modelName c =
      if d ≥ threshold then none else some d := by
  rw [near, h, Option.bind_some, hd]
  change (some d).filter _ = _
  by_cases hfar : d ≥ threshold
  · simp [hfar]
  · simp [hfar, not_le.mp hfar]

/-- What is compared, with its distances and places. -/
theorem denseRankedOver_of_measured : ∀ {cs : List (EventChunk × Nat)},
    store.Measured distance queryEmbedding modelName (cs.map Prod.fst) →
    ∃ out, store.denseRankedOver distance threshold queryEmbedding modelName cs = .ok out ∧
      out.map (fun x => (x.1.1, x.2)) =
        store.nearest distance threshold queryEmbedding modelName (cs.map Prod.fst) ∧
      (out.map fun x => (x.2, x.1.2)).Sublist cs
  | [], _ => ⟨[], rfl, rfl, .slnil⟩
  | (c, index) :: cs, h => by
    obtain ⟨out, hout, hmap, hsub⟩ := denseRankedOver_of_measured
      fun c' hc' => h c' (List.mem_cons_of_mem c hc')
    have hnear : store.nearest distance threshold queryEmbedding modelName
        (c :: cs.map Prod.fst) =
        ((store.near distance threshold queryEmbedding modelName c).map fun d => (d, c)).toList ++
          store.nearest distance threshold queryEmbedding modelName (cs.map Prod.fst) := by
      rw [nearest, List.filterMap_cons]
      cases store.near distance threshold queryEmbedding modelName c <;> rfl
    rw [denseRankedOver, List.map_cons, hnear, ← hmap]
    cases hrecord : store.embeddingRecords.find? (c.chunkId, modelName) with
    | none =>
      rw [near_of_none hrecord]
      exact ⟨out, hout, rfl, hsub.cons (c, index)⟩
    | some record =>
      obtain ⟨d, hd⟩ := h c List.mem_cons_self record hrecord
      dsimp only
      rw [hd, hout, near_of_ok hrecord hd]
      by_cases hfar : d ≥ threshold
      · rw [if_pos hfar]
        exact ⟨out, congrArg Except.ok (if_pos hfar), rfl, hsub.cons (c, index)⟩
      · rw [if_neg hfar]
        exact ⟨((d, index), c) :: out, congrArg Except.ok (if_neg hfar), rfl,
          hsub.cons_cons (c, index)⟩

/-- A comparison that returned could take every distance. -/
theorem measured_of_denseRankedOver : ∀ {cs : List (EventChunk × Nat)}
    {out : List ((D × Nat) × EventChunk)},
    store.denseRankedOver distance threshold queryEmbedding modelName cs = .ok out →
    store.Measured distance queryEmbedding modelName (cs.map Prod.fst)
  | [], _, _ => fun c hc => absurd hc List.not_mem_nil
  | (c, index) :: cs, out, h => by
    rw [denseRankedOver] at h
    intro c' hc' record hrecord
    cases hown : store.embeddingRecords.find? (c.chunkId, modelName) with
    | none =>
      rw [hown] at h
      rcases List.mem_cons.mp hc' with rfl | hc'
      · cases hown.symm.trans hrecord
      · exact measured_of_denseRankedOver h c' hc' record hrecord
    | some own =>
      rw [hown] at h
      obtain ⟨d, hd, h⟩ := ok_of_bind h
      obtain ⟨rest, hrest, -⟩ := ok_of_bind h
      rcases List.mem_cons.mp hc' with rfl | hc'
      · cases hown.symm.trans hrecord
        exact ⟨d, hd⟩
      · exact measured_of_denseRankedOver hrest c' hc' record hrecord

/-- The chunks of the scope that are compared. -/
theorem map_eligible (scope : SearchScope) :
    (store.eventChunks.rows.zipIdx.filter fun e =>
      chunkInScope scope e.1 && e.1.embeddingStatus = .ready).map Prod.fst =
      ((store.activeChunks scope.community).filter fun c => c.embeddingStatus = .ready).filter
        scope.keeps := by
  rw [map_fst_filter_zipIdx (fun c => chunkInScope scope c && c.embeddingStatus = .ready),
    filter_chunkInScope]

theorem nearest_filter (p : EventChunk → Bool) (cs : List EventChunk) :
    store.nearest distance threshold queryEmbedding modelName (cs.filter p) =
      (store.nearest distance threshold queryEmbedding modelName cs).filter fun x => p x.2 := by
  induction cs with
  | nil => rfl
  | cons c cs ih =>
    rw [List.filter_cons]
    cases hp : p c <;> cases hn : store.near distance threshold queryEmbedding modelName c <;>
      simp [nearest, hn, hp] at ih ⊢ <;> exact ih

theorem nearest_sublist (cs : List EventChunk) :
    ((store.nearest distance threshold queryEmbedding modelName cs).map Prod.snd).Sublist cs := by
  induction cs with
  | nil => exact .slnil
  | cons c cs ih =>
    rw [nearest, List.filterMap_cons]
    cases store.near distance threshold queryEmbedding modelName c with
    | none => exact ih.cons c
    | some d => exact ih.cons_cons c

theorem denseCandidatesOver_of_measured {scope : SearchScope} (hc : scope.community ≠ "")
    (h : store.Measured distance queryEmbedding modelName
      ((store.activeChunks scope.community).filter fun c => c.embeddingStatus = .ready)) :
    store.denseCandidatesOver distance threshold queryEmbedding modelName scope =
      .ok (((store.denseRanking distance threshold queryEmbedding modelName
        scope.community).filter scope.keeps).take scope.limit.toNat) := by
  rw [denseCandidatesOver, requireCommunity_bind, if_neg hc]
  split
  · next hlimit =>
    rw [Int.toNat_of_nonpos hlimit, List.take_zero]
    rfl
  set eligible := store.eventChunks.rows.zipIdx.filter fun e =>
    chunkInScope scope e.1 && e.1.embeddingStatus = .ready with heligible
  have hchunks := @map_eligible store scope
  rw [← heligible] at hchunks
  have hmeasured : store.Measured distance queryEmbedding modelName (eligible.map Prod.fst) := by
    rw [hchunks]
    exact fun c hc => h c (List.mem_filter.mp hc).1
  obtain ⟨out, hout, hmap, hsub⟩ := @denseRankedOver_of_measured store D _ distance threshold
    queryEmbedding modelName eligible hmeasured
  have hpositions : out.Pairwise fun x y => x.1.2 < y.1.2 :=
    (List.pairwise_map (f := fun x : (D × Nat) × EventChunk => (x.2, x.1.2))).mp
      (((pairwise_positions store.eventChunks.rows 0).sublist List.filter_sublist).sublist hsub)
  change (store.denseRankedOver distance threshold queryEmbedding modelName eligible >>= _) = _
  rw [hout]
  refine congrArg Except.ok ?_
  set unplaced : (D × Nat) × EventChunk → D × EventChunk := fun x => (x.1.1, x.2) with hunplaced
  calc ((oldestFirst (fun e => toLex e.1) out).take scope.limit.toNat).map Prod.snd
      = (((oldestFirst (fun e => toLex e.1) out).map unplaced).map Prod.snd).take
          scope.limit.toNat := by rw [List.map_take, List.map_map]; rfl
    _ = ((oldestFirst Prod.fst (out.map unplaced)).map Prod.snd).take scope.limit.toNat := by
        rw [← map_oldestFirst_position Prod.fst (f := unplaced) hpositions]
    _ = _ := by
        rw [hunplaced, hmap, hchunks, nearest_filter, ← filter_oldestFirst, denseRanking,
          List.filter_map]
        rfl

theorem perm_denseRanking (community : String) :
    (store.denseRanking distance threshold queryEmbedding modelName community).Perm
      ((store.nearest distance threshold queryEmbedding modelName
        ((store.activeChunks community).filter fun c => c.embeddingStatus = .ready)).map
          Prod.snd) :=
  (List.perm_insertionSort _ _).map Prod.snd

/-- The ranking holds active chunks of the community. -/
theorem nearest_sublist_activeChunks (community : String) :
    ((store.nearest distance threshold queryEmbedding modelName
      ((store.activeChunks community).filter fun c => c.embeddingStatus = .ready)).map
        Prod.snd).Sublist (store.activeChunks community) :=
  (nearest_sublist _).trans List.filter_sublist

theorem length_denseRanking (community : String) :
    (store.denseRanking distance threshold queryEmbedding modelName community).length ≤
      store.chunkCount := by
  rw [(perm_denseRanking community).length_eq]
  exact (nearest_sublist_activeChunks community).length_le.trans
    (store.length_activeChunks community)

theorem nodup_denseRanking (community : String) :
    ((store.denseRanking distance threshold queryEmbedding modelName community).map
      EventChunk.chunkId).Nodup := by
  rw [((perm_denseRanking community).map _).nodup_iff]
  exact (store.nodup_activeChunks community).sublist
    ((nearest_sublist_activeChunks community).map _)

/-- The leg over distances that can always be taken. -/
theorem denseCandidatesOver_rankedLeg (h : ∀ a b, ∃ d, distance a b = .ok d) :
    RankedLeg store.chunkCount
      (store.denseCandidatesOver distance threshold queryEmbedding modelName)
      (store.denseRanking distance threshold queryEmbedding modelName) := by
  refine ⟨⟨.valueError "community_id is required (Runtime invariant R-3)", fun scope hc => ?_⟩,
    fun scope hc => denseCandidatesOver_of_measured hc fun _ _ _ _ => h _ _, length_denseRanking,
    nodup_denseRanking⟩
  rw [denseCandidatesOver, requireCommunity_bind, if_pos hc]

/-- A leg that returned without a limit could take every distance. -/
theorem measured_of_whole {community : String} {n : Nat} (hn : store.chunkCount ≤ n)
    {all : List EventChunk}
    (h : store.denseCandidatesOver distance threshold queryEmbedding modelName
      (.whole community n) = .ok all) :
    store.Measured distance queryEmbedding modelName
      ((store.activeChunks community).filter fun c => c.embeddingStatus = .ready) := by
  rw [denseCandidatesOver, requireCommunity_bind] at h
  split at h
  · cases h
  split at h
  · next hlimit =>
    -- without room for a chunk the store has none
    have hzero : store.chunkCount = 0 := by
      have hn' : (n : Int) ≤ 0 := hlimit
      omega
    have hempty : store.activeChunks community = [] := by
      rw [activeChunks, List.length_eq_zero_iff.mp hzero, List.filter_nil]
    rw [hempty]
    exact fun c hc => absurd hc List.not_mem_nil
  · obtain ⟨out, hout, -⟩ := ok_of_bind h
    have hmeasured := measured_of_denseRankedOver hout
    rw [map_eligible] at hmeasured
    intro c hc
    exact hmeasured c (List.mem_filter.mpr ⟨hc, keeps_whole community n c⟩)

/-- Without a limit the whole ranking is returned. -/
theorem denseCandidatesOver_of_whole {community : String} {n : Nat} (hn : store.chunkCount ≤ n)
    (hc : community ≠ "")
    (h : store.Measured distance queryEmbedding modelName
      ((store.activeChunks community).filter fun c => c.embeddingStatus = .ready)) :
    store.denseCandidatesOver distance threshold queryEmbedding modelName (.whole community n) =
      .ok (store.denseRanking distance threshold queryEmbedding modelName community) := by
  have hlength : (store.denseRanking distance threshold queryEmbedding modelName
      community).length ≤ n := (length_denseRanking community).trans hn
  have hkeeps : (store.denseRanking distance threshold queryEmbedding modelName
      community).filter (SearchScope.whole community n).keeps =
      store.denseRanking distance threshold queryEmbedding modelName community :=
    List.filter_eq_self.mpr fun c _ => keeps_whole community n c
  have hc' : (SearchScope.whole community n).community ≠ "" := hc
  rw [denseCandidatesOver_of_measured hc' h]
  refine congrArg Except.ok ?_
  calc ((store.denseRanking distance threshold queryEmbedding modelName community).filter
        (SearchScope.whole community n).keeps).take n
      = (store.denseRanking distance threshold queryEmbedding modelName community).take n := by
        rw [hkeeps]
    _ = _ := List.take_of_length_le hlength

end Dense

end MockDomainStore

open MockDomainStore in
/-- Both legs of the in-memory store filter before they limit, whatever the distance is. The
dense leg of the store is the leg over the cosine distance; where its unlimited ranking can be
taken at all, the limited one is what the filters keep of it. -/
theorem legs_filter_first (store : MockDomainStore) (engine : SearchEngine) (queryText : String)
    (queryEmbedding : Vec) (modelName : String) :
    (∀ {D : Type} [LinearOrder D] (distance : Vec → Vec → D) (threshold : D),
      FiltersFirst store.chunkCount (store.denseCandidatesOver
        (fun a b => .ok (distance a b)) threshold queryEmbedding modelName)) ∧
    FiltersFirst store.chunkCount (store.sparseCandidates engine queryText) ∧
    (∀ scope, store.denseCandidates engine queryEmbedding modelName scope =
      store.denseCandidatesOver (cosineDistance engine) denseThreshold queryEmbedding modelName
        scope) ∧
    ∀ (scope : SearchScope) (n : Nat) all, store.chunkCount ≤ n →
      store.denseCandidates engine queryEmbedding modelName (.whole scope.community n) = .ok all →
      store.denseCandidates engine queryEmbedding modelName scope =
        .ok ((all.filter scope.keeps).take scope.limit.toNat) := by
  refine ⟨fun distance threshold => ?_,
    (store.sparseCandidates_rankedLeg engine queryText).filtersFirst,
    fun scope => store.denseCandidates_eq_over queryEmbedding modelName engine scope,
    fun scope n all hn hall => ?_⟩
  · exact (denseCandidatesOver_rankedLeg fun a b => ⟨distance a b, rfl⟩).filtersFirst
  · rw [denseCandidates_eq_over] at hall ⊢
    have hmeasured := measured_of_whole hn hall
    have hc : scope.community ≠ "" := by
      intro hc
      rw [denseCandidatesOver, requireCommunity_bind,
        if_pos (show (SearchScope.whole scope.community n).community = "" from hc)] at hall
      cases hall
    have hwhole : .ok (store.denseRanking (cosineDistance engine) denseThreshold queryEmbedding
        modelName scope.community) = Except.ok all :=
      (denseCandidatesOver_of_whole hn hc hmeasured).symm.trans hall
    rw [denseCandidatesOver_of_measured hc hmeasured, Except.ok.inj hwhole]

/-- Two ready chunks, one of a subject. -/
def walks : MockDomainStore where
  eventChunks := ⟨[{ walkChunk "a" with embeddingStatus := .ready },
    { walkChunk "b" with embeddingStatus := .ready, subjectId := some "dog" }], by decide⟩
  embeddingRecords := ⟨["a", "b"].map fun id =>
    { embeddingRecordId := id, chunkId := id, sourceMessageId := "source",
      communityId := "community", modelName := "model", dimension := 1, embedding := [0],
      createdAt := (walkChunk id).createdAt }, by decide⟩

/-- The first chunk is not of the subject and does not use up the limit. -/
theorem legs_filter_first_walks :
    (walks.denseCandidates .plain [0] "model"
      { community := "community", limit := 1, subjectScope := some "dog" }).map
        (List.map EventChunk.chunkId) = .ok ["b"] := by
  obtain ⟨all, hall⟩ : ∃ all,
      walks.denseCandidates .plain [0] "model" (.whole "community" 2) = .ok all := ⟨_, rfl⟩
  rw [(legs_filter_first walks .plain "walk" [0] "model").2.2.2
    { community := "community", limit := 1, subjectScope := some "dog" } 2 all (by decide) hall]
  rw [← Except.ok.inj hall]
  decide +kernel

end DiaryMemory
