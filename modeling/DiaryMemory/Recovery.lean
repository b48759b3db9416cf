import DiaryMemory.Operations

/-!
# A retry in which nothing fails

From a call on after which no call of the store fails by itself and the client answers with
one vector a text, a retry makes each failed chunk of the community ready that has no record
under the model of the client yet (`Tables.Retried`). A chunk that has one, left by an attempt
that could not set its status, stays failed : its record can not be stored again
(`retry_recovers`).
-/

namespace DiaryMemory

/-- From call `n₀` on, no call of the store fails by itself and every text gets a vector. -/
structure Env.HealthyFrom (env : Env) (n₀ : Nat) : Prop where
  store : ∀ n, n₀ ≤ n → ∀ c, env.storeFails n c = none
  embed : ∀ n, n₀ ≤ n → ∀ texts, ∃ vectors, env.embed n texts = .ok vectors ∧
    vectors.length = texts.length

/-- The chunk has a record under the model. -/
def Tables.recorded (T : Tables) (model id : String) : Bool :=
  (T.embeddingRecords.find? (id, model)).isSome

/-- The chunks `chunks` without a record are ready with one, the other chunks and the records
that were there are unchanged, and each chunk is reported. -/
structure Tables.Retried (model : String) (chunks : List EventChunk) (T : Tables)
    (groups : List RetryGroupOutcome) (T' : Tables) : Prop where
  chunk : ∀ c ∈ T.eventChunks,
    (if c ∈ chunks ∧ T.recorded model c.chunkId = false then c.withStatus .ready else c) ∈
      T'.eventChunks
  record : ∀ id, T'.recorded model id = true ↔
    T.recorded model id = true ∨ ∃ c ∈ chunks, c.chunkId = id
  kept : ∀ r ∈ T.embeddingRecords, r ∈ T'.embeddingRecords
  report : groups.map (fun g => (g.chunkIds, g.succeeded)) =
    chunks.map fun c => ([c.chunkId], !T.recorded model c.chunkId)

namespace Tables.Retried

variable {model : String} {T T₁ T' : Tables} {chunk : EventChunk} {chunks : List EventChunk}
  {group : RetryGroupOutcome} {groups groups' : List RetryGroupOutcome}

theorem nil (T : Tables) : T.Retried model [] [] T where
  chunk c hc := by simpa using hc
  record id := by simp
  kept r hr := hr
  report := rfl

/-- A chunk with a record, and another dead letter. -/
theorem refused (hr : T.recorded model chunk.chunkId = true)
    (hrows : T'.eventChunks = T.eventChunks ∧ T'.embeddingRecords = T.embeddingRecords)
    (hids : group.chunkIds = [chunk.chunkId]) (hfailed : group.succeeded = false) :
    Tables.Retried model [chunk] T [group] T' where
  chunk c hc := by
    rw [if_neg, hrows.1]
    · exact hc
    · rintro ⟨hmem, hnone⟩
      rw [List.mem_singleton.mp hmem, hr] at hnone
      cases hnone
  record id := by
    have hsame : T'.recorded model id = T.recorded model id := by rw [recorded, hrows.2, recorded]
    rw [hsame]
    refine ⟨.inl, fun h => h.elim (fun h => h) ?_⟩
    rintro ⟨c, hmem, rfl⟩
    rw [List.mem_singleton.mp hmem]
    exact hr
  kept r hr := hrows.2 ▸ hr
  report := by simp [hids, hfailed, hr]

/-- A chunk that gets its record. -/
theorem stored (hc : chunk ∈ T.eventChunks) (hnone : T.recorded model chunk.chunkId = false)
    {record : EmbeddingRecord} (hr : record.chunkModel = (chunk.chunkId, model))
    (hids : group.chunkIds = [chunk.chunkId]) (hok : group.succeeded = true) :
    Tables.Retried model [chunk] T [group]
      ((T.putRecords [record]).setStatus chunk.chunkId .ready) where
  chunk c hcm := by
    by_cases he : c = chunk
    · rw [he, if_pos ⟨List.mem_singleton_self chunk, hnone⟩]
      exact mem_setStatus.mpr ⟨chunk, hc, (if_pos rfl).symm⟩
    · rw [if_neg fun h => he (List.mem_singleton.mp h.1)]
      have hne : c.chunkId ≠ chunk.chunkId := fun hid => he (Table.eq_of_key hcm hc hid)
      exact mem_setStatus.mpr ⟨c, hcm, (if_neg hne).symm⟩
  record id := by
    have hfind : ((T.putRecords [record]).setStatus chunk.chunkId .ready).embeddingRecords.find?
        (id, model) = if record.chunkModel = (id, model) then some record
          else T.embeddingRecords.find? (id, model) := Table.find?_put
    unfold recorded
    rw [hfind, hr]
    by_cases he : chunk.chunkId = id <;> simp [he]
  kept r hrm := by
    refine Table.mem_put_of_ne hrm fun he => ?_
    have hfind : T.recorded model chunk.chunkId = true :=
      Table.isSome_find?_iff.mpr ⟨r, hrm, he.trans hr⟩
    rw [hnone] at hfind
    cases hfind
  report := by simp [hids, hok, hnone]

/-- One chunk after the other. -/
theorem cons (h : Tables.Retried model [chunk] T [group] T₁)
    (h' : Tables.Retried model chunks T₁ groups T') (hc : chunk ∈ T.eventChunks)
    (hcs : ∀ c ∈ chunks, c ∈ T.eventChunks) (hnew : chunk ∉ chunks) :
    Tables.Retried model (chunk :: chunks) T (group :: groups) T' := by
  have hsame : ∀ c ∈ T.eventChunks, c ≠ chunk →
      T₁.recorded model c.chunkId = T.recorded model c.chunkId := by
    intro c hcm he
    rw [Bool.eq_iff_iff, h.record]
    refine ⟨fun hor => hor.elim (fun h => h) ?_, .inl⟩
    rintro ⟨d, hd, hid⟩
    rw [List.mem_singleton.mp hd] at hid
    exact absurd (Table.eq_of_key hcm hc hid.symm) he
  refine ⟨fun c hcm => ?_, fun id => ?_, fun r hr => h'.kept r (h.kept r hr), ?_⟩
  · have hthere := h.chunk c hcm
    by_cases he : c = chunk
    · rw [he] at hthere ⊢
      have hrecorded : T₁.recorded model chunk.chunkId = true :=
        (h.record _).mpr (.inr ⟨chunk, List.mem_singleton_self chunk, rfl⟩)
      have hlast := h'.chunk _ hthere
      by_cases hnone : T.recorded model chunk.chunkId = false
      · simpa [hnone, hrecorded] using hlast
      · simpa [hnone, hrecorded] using hlast
    · rw [if_neg fun hmem => he (List.mem_singleton.mp hmem.1)] at hthere
      have hlast := h'.chunk c hthere
      simpa only [hsame c hcm he, List.mem_cons, he, false_or] using hlast
  · rw [h'.record, h.record]
    simp only [List.mem_cons, List.not_mem_nil, or_false, exists_eq_or_imp, exists_eq_left]
    tauto
  · have hrest : chunks.map (fun c => ([c.chunkId], !T₁.recorded model c.chunkId)) =
        chunks.map fun c => ([c.chunkId], !T.recorded model c.chunkId) :=
      List.map_congr_left fun c hcm => by rw [hsame c (hcs c hcm) fun he => hnew (he ▸ hcm)]
    rw [List.map_cons, List.map_cons, h'.report, hrest]
    exact congrArg (· ++ _) h.report

end Tables.Retried

section Retrying

variable {kind : StoreKind} {engine : SearchEngine} {env : Env}
  {w w' : World (kind.backend engine).State} {n₀ : Nat} {client : EmbeddingClient}
  {community : String} {chunk : EventChunk}

/-- A chunk with a record stays failed, one without a record gets it. -/
theorem GroupOutcome.retried {group : RetryGroupOutcome} (henv : env.HealthyFrom n₀)
    (hn : n₀ ≤ w.tick) (hchunk : chunk ∈ w.rows.eventChunks)
    (h : GroupOutcome env client chunk w group w') :
    Tables.Retried client.modelName [chunk] w.rows [group] w'.rows := by
  obtain ⟨vectors, hvectors, hlength⟩ := henv.embed w.tick hn [chunk.chunkText]
  obtain ⟨vector, rfl⟩ := List.length_eq_one_iff.mp hlength
  cases h with
  | succeeded ht ho =>
    rw [← ht.rows] at hchunk ⊢
    cases ho with
    | @stored record _ _ _ hkey hc =>
      obtain ⟨-, hraise, -⟩ | ⟨hnone, -, hp⟩ := hc.stored henv.store (hn.trans ht.log.length_le)
      · cases hraise
      · have hrecorded : Tables.recorded _ client.modelName chunk.chunkId = false := hkey ▸ hnone
        rw [hp.rows]
        exact .stored hchunk hrecorded hkey rfl rfl
  | failed ht ho hl hdead hids hfailed =>
    rw [← ht.rows]
    cases ho with
    | unanswered hanswer => exact absurd hvectors (hanswer vector)
    | @stored record _ _ _ hkey hc =>
      obtain ⟨hfound, -, hrows⟩ | ⟨-, hraise, -⟩ := hc.stored henv.store (hn.trans ht.log.length_le)
      · have hrecorded : Tables.recorded _ client.modelName chunk.chunkId = true := hkey ▸ hfound
        rw [← hl.rows] at hrows
        refine .refused hrecorded ?_ hids hfailed
        rcases hdead with hr | ⟨_, hr⟩
        · rw [hr.rows, ← hrows]
          exact ⟨rfl, rfl⟩
        · rw [hr.rows, hrows]
          exact ⟨rfl, rfl⟩
      · cases hraise

theorem GroupsOutcome.retried {chunks : List EventChunk} {groups : List RetryGroupOutcome}
    (henv : env.HealthyFrom n₀) (h : GroupsOutcome env client chunks w groups w')
    (hn : n₀ ≤ w.tick) (hnodup : chunks.Nodup) (hthere : ∀ c ∈ chunks, c ∈ w.rows.eventChunks) :
    Tables.Retried client.modelName chunks w.rows groups w'.rows := by
  induction h with
  | nil => exact .nil _
  | @cons chunk chunks _ _ v v₁ _ ho _ ih =>
    obtain ⟨hnew, hnodup⟩ := List.nodup_cons.mp hnodup
    obtain ⟨hchunk, hothers⟩ := List.forall_mem_cons.mp hthere
    have hfirst := ho.retried henv hn hchunk
    have hthere₁ : ∀ c ∈ chunks, c ∈ v₁.rows.eventChunks := by
      intro c hc
      have hkept := hfirst.chunk c (hothers c hc)
      have hother : c ∉ [chunk] := fun h => hnew (List.mem_singleton.mp h ▸ hc)
      rwa [if_neg fun h => hother h.1] at hkept
    exact hfirst.cons (ih (hn.trans ho.log.length_le) hnodup hthere₁) hchunk hothers hnew

/-- A retry in which nothing fails reports. -/
theorem RetryOutcome.retried_listed {limit : Option Int} {r : Except Exn RetryOutcomeReport}
    (hs : Sound env w) (henv : env.HealthyFrom w.tick) (hcommunity : community ≠ "")
    (hlimit : limit.any (· < 0) = false)
    (h : RetryOutcome env ⟨some client⟩ community limit w r w') :
    ∃ groups, r = .ok ⟨community, groups⟩ ∧ Tables.Retried client.modelName
      (w.rows.listFailedEventChunks community limit) w.rows groups w'.rows := by
  cases h with
  | unavailable hclient => cases hclient
  | unlisted hr =>
    rcases hr.refused_from henv.store le_rfl with h | h
    · exact absurd h hcommunity
    · rw [hlimit] at h
      cases h
  | @retried client' groups w₁ _ hclient hp ho =>
    cases hclient
    have hrows : w₁.rows = w.rows := hp.rows
    have hsources := hs.linked.nodup_failed_sources community limit
    have hretried := ho.retried henv hp.log.length_le hsources.of_map fun c hc => by
      rw [hrows]
      exact (Tables.mem_failedChunks.mp
        ((w.rows.listFailedEventChunks_sublist community limit).subset hc)).1
    rw [hrows] at hretried
    exact ⟨groups, rfl, hretried⟩

theorem RetryOutcome.retried_of_healthy {r : Except Exn RetryOutcomeReport} (hs : Sound env w)
    (henv : env.HealthyFrom w.tick) (hcommunity : community ≠ "")
    (h : RetryOutcome env ⟨some client⟩ community none w r w') :
    ∃ groups, r = .ok ⟨community, groups⟩ ∧ Tables.Retried client.modelName
      (w.rows.failedChunks community) w.rows groups w'.rows :=
  h.retried_listed hs henv hcommunity rfl

end Retrying

/-- What a retry does to a failed chunk : without a record under the model it is ready with
exactly one afterwards, with one it stays failed and keeps it, and its group is reported so. -/
structure Tables.Recovered (model : String) (c : EventChunk) (T : Tables)
    (groups : List RetryGroupOutcome) (T' : Tables) : Prop where
  missing : (∀ x ∈ T.embeddingRecords, x.chunkModel ≠ (c.chunkId, model)) →
    c.withStatus .ready ∈ T'.eventChunks ∧
      (∃! x, x ∈ T'.embeddingRecords ∧ x.chunkModel = (c.chunkId, model)) ∧
      ∃ g ∈ groups, g.chunkIds = [c.chunkId] ∧ g.succeeded = true
  present : ∀ x ∈ T.embeddingRecords, x.chunkModel = (c.chunkId, model) →
    c ∈ T'.eventChunks ∧ x ∈ T'.embeddingRecords ∧
      ∃ g ∈ groups, g.chunkIds = [c.chunkId] ∧ g.succeeded = false

theorem Tables.Retried.recovered {model : String} {chunks : List EventChunk} {T T' : Tables}
    {groups : List RetryGroupOutcome} (h : Tables.Retried model chunks T groups T')
    {c : EventChunk} (hc : c ∈ T.eventChunks) (hlisted : c ∈ chunks) :
    T.Recovered model c groups T' := by
  have hchunk := h.chunk c hc
  have hreport : ∃ g ∈ groups,
      (g.chunkIds, g.succeeded) = ([c.chunkId], !T.recorded model c.chunkId) := by
    have hmem := List.mem_map_of_mem (f := fun c : EventChunk =>
      ([c.chunkId], !T.recorded model c.chunkId)) hlisted
    rw [← h.report] at hmem
    exact List.mem_map.mp hmem
  obtain ⟨g, hg, hgroup⟩ := hreport
  obtain ⟨hids, hsucceeded⟩ := Prod.mk.inj hgroup
  refine ⟨fun hnone => ?_, fun x hx hkey => ?_⟩
  · have hnot : T.recorded model c.chunkId = false := by
      refine Bool.eq_false_iff.mpr fun hfound => ?_
      obtain ⟨x, hx, hkey⟩ := Table.isSome_find?_iff.mp hfound
      exact hnone x hx hkey
    rw [if_pos ⟨hlisted, hnot⟩] at hchunk
    obtain ⟨x, hx, hkey⟩ := Table.isSome_find?_iff.mp ((h.record c.chunkId).mpr
      (.inr ⟨c, hlisted, rfl⟩))
    refine ⟨hchunk, ⟨x, ⟨hx, hkey⟩, fun y hy => ?_⟩, g, hg, hids, by rw [hsucceeded, hnot]; rfl⟩
    exact Table.eq_of_key hy.1 hx (hy.2.trans hkey.symm)
  · have hfound : T.recorded model c.chunkId = true :=
      Table.isSome_find?_iff.mpr ⟨x, hx, hkey⟩
    rw [if_neg fun hnot => by rw [hfound] at hnot; cases hnot.2] at hchunk
    exact ⟨hchunk, h.kept x hx, g, hg, hids, by rw [hsucceeded, hfound]; rfl⟩

/-- In every run, whatever failed before, a retry in which nothing fails by itself recovers the
failed chunks of the community that have no record under the model yet. -/
theorem retry_recovers (kind : StoreKind) (engine : SearchEngine) (env : Env)
    (ops : List Operation) (client : EmbeddingClient) {community : String}
    (hcommunity : community ≠ "") :
    let w := runAll (kind.backend engine) env (World.initial kind engine) ops
    let r := ((ReconciliationService.mk (some client)).retryFailedChunks community none).exec
      (kind.backend engine) env w
    env.HealthyFrom w.tick → ∃ groups, r.1 = .ok ⟨community, groups⟩ ∧
      ∀ c ∈ w.rows.eventChunks, c.communityId = community → c.embeddingStatus = .failed →
        w.rows.Recovered client.modelName c groups r.2.rows := by
  intro w r henv
  have hs : Sound env w := sound_run env ops
  obtain ⟨groups, hr, h⟩ := (retry_outcome hs _ community none).retried_of_healthy hs henv hcommunity
  refine ⟨groups, hr, fun c hc hcc hfailed => h.recovered hc ?_⟩
  exact Tables.mem_failedChunks.mpr ⟨hc, hcc, hfailed⟩

/-- The provider answers from the tenth call on. -/
def Env.embedRecovers : Env :=
  { Env.steady with
    embed := fun n texts =>
      if n < 10 then .error (.runtimeError "unreachable") else .ok (texts.map fun _ => [1]) }

theorem Env.embedRecovers_healthyFrom {n : Nat} (h : 10 ≤ n) : Env.embedRecovers.HealthyFrom n where
  store _ _ _ := rfl
  embed _ hm texts := ⟨texts.map fun _ => [1], if_neg (Nat.not_lt.mpr (h.trans hm)),
    List.length_map _⟩

theorem retry_recovers_after_outage :
    let w := runAll (StoreKind.mock.backend .plain) .embedRecovers (World.initial .mock .plain)
      [.ingest ⟨some ⟨"model", 1⟩⟩ (.plain .note "2026-05-09\nwalk" 0)]
    let r := ((ReconciliationService.mk (some ⟨"model", 1⟩)).retryFailedChunks "community" none).exec
      (StoreKind.mock.backend .plain) .embedRecovers w
    ∃ groups, r.1 = .ok ⟨"community", groups⟩ ∧
      ∀ c ∈ w.rows.eventChunks, c.communityId = "community" → c.embeddingStatus = .failed →
        w.rows.Recovered "model" c groups r.2.rows :=
  retry_recovers .mock .plain .embedRecovers _ ⟨"model", 1⟩ (by decide)
    (Env.embedRecovers_healthyFrom (by decide +kernel))

/-- The chunk turned ready by the first retry stays failed when that write raises : the retry
after it, in which nothing fails, can not store its record again. -/
theorem retry_not_recovered_with_record :
    let env : Env := { Env.embedRecovers with
      storeFails := fun n c =>
        if n < 18 ∧ c matches .setChunkEmbeddingStatus _ .ready then some (.other "OperationalError")
        else none }
    let client : EmbeddingClient := ⟨"model", 1⟩
    let w := runAll (StoreKind.mock.backend .plain) env (World.initial .mock .plain)
      [.ingest ⟨some client⟩ (.plain .note "2026-05-09\nwalk" 0),
        .retry ⟨some client⟩ "community" none]
    let r := ((ReconciliationService.mk (some client)).retryFailedChunks "community" none).exec
      (StoreKind.mock.backend .plain) env w
    env.HealthyFrom w.tick ∧ ∃ c ∈ w.rows.eventChunks, c.communityId = "community" ∧
      c.embeddingStatus = .failed ∧ c ∈ r.2.rows.eventChunks := by
  intro env client w r
  have htick : 18 ≤ w.tick := by decide +kernel
  have hchunk : ∃ c ∈ w.rows.eventChunks.rows, c.communityId = "community" ∧
      c.embeddingStatus = .failed ∧ c ∈ r.2.rows.eventChunks.rows := by decide +kernel
  refine ⟨⟨fun n hn c => if_neg fun h => ?_, fun n hn texts => ?_⟩, hchunk⟩
  · exact Nat.not_lt.mpr (htick.trans hn) h.1
  · exact (Env.embedRecovers_healthyFrom (by decide)).embed n (htick.trans hn) texts

end DiaryMemory
