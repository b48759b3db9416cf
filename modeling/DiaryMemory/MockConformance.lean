import DiaryMemory.Serving

/-!
# The in-memory store serves its calls

`MockDomainStore.Indexed` says that the idempotency index holds one entry for each
source row and no other. A call under its guard keeps it, and is served as
`DiaryMemory.Serving` says (`MockDomainStore.serves`).
-/

namespace DiaryMemory

/-! ## Inserts -/

section Inserts

variable {K V : Type} [DecidableEq K] {key : V → K} {message : V → String} {t : Table key}

theorem insertNew_of_fresh {v : V} (h : ∀ x ∈ t, key x ≠ key v) :
    insertNew message t v = .ok (t.put v) := by
  rw [insertNew, Table.find?_eq_none_iff.mpr h]
  rfl

theorem insertNew_of_taken {v : V} (h : (t.find? (key v)).isSome) :
    insertNew message t v = .error (.valueError (message v)) := by
  rw [insertNew, if_pos h]
  rfl

theorem insertAllNew_of_fresh : ∀ {vs : List V} {t : Table key}, (vs.map key).Nodup →
    (∀ v ∈ vs, ∀ x ∈ t, key x ≠ key v) → insertAllNew message t vs = (.ok (), t.putAll vs)
  | [], _, _, _ => rfl
  | v :: vs, t, hn, hf => by
    obtain ⟨hv, hn⟩ := List.nodup_cons.mp hn
    rw [insertAllNew, insertNew_of_fresh (hf v List.mem_cons_self), Table.putAll_cons]
    refine insertAllNew_of_fresh hn fun w hw x hx => ?_
    rcases Table.mem_put.mp hx with rfl | ⟨hx, _⟩
    · exact fun he => hv (List.mem_map.mpr ⟨w, hw, he.symm⟩)
    · exact hf w (List.mem_cons_of_mem _ hw) x hx

end Inserts

namespace MockDomainStore

/-- The index maps the key of each source row to it, and nothing else. -/
structure Indexed (s : MockDomainStore) : Prop where
  entry : ∀ x ∈ s.sourceMessages, (x.messageKey, x.sourceMessageId) ∈ s.idempotency
  source : ∀ e ∈ s.idempotency, ∃ x ∈ s.sourceMessages, e = (x.messageKey, x.sourceMessageId)

theorem indexed_empty : ({} : MockDomainStore).Indexed where
  entry _ h := absurd h Table.not_mem_empty
  source _ h := absurd h Table.not_mem_empty

theorem ext_tables {s s' : MockDomainStore} (hi : s'.idempotency = s.idempotency)
    (ht : s'.toTables = s.toTables) : s' = s := by
  cases s
  cases s'
  cases hi
  cases ht
  rfl

variable {engine : SearchEngine} {s : MockDomainStore}

/-- The index answers as a search for the key would. -/
theorem find?_idempotency (hs : s.Indexed) (key : MessageKey) :
    s.idempotency.find? key =
      (s.sourceForKey key).map fun x => (x.messageKey, x.sourceMessageId) := by
  cases h : s.sourceForKey key with
  | none =>
    refine Table.find?_eq_none_iff.mpr fun e he hk => ?_
    obtain ⟨x, hx, rfl⟩ := hs.source e he
    exact Tables.sourceForKey_eq_none.mp h x hx hk
  | some x =>
    obtain ⟨hx, rfl⟩ := Tables.mem_of_sourceForKey h
    exact Table.find?_eq_some_iff.mpr ⟨hs.entry x hx, rfl⟩

theorem getOrCreateSourceMessage_eq (hs : s.Indexed) (source : SourceMessage) :
    s.getOrCreateSourceMessage source =
      match s.sourceForKey source.messageKey with
      | some existing => (.ok (existing, true), s)
      | none => (.ok (source, false), { s with
          sourceMessages := s.sourceMessages.put source
          idempotency := s.idempotency.put (source.messageKey, source.sourceMessageId) }) := by
  rw [getOrCreateSourceMessage, find?_idempotency hs]
  cases h : s.sourceForKey source.messageKey with
  | none => rfl
  | some x =>
    obtain ⟨hx, -⟩ := Tables.mem_of_sourceForKey h
    simp only [Option.map_some, Table.find?_key hx]

theorem indexed_putSource (hs : s.Indexed) {source : SourceMessage}
    (hfresh : ∀ x ∈ s.sourceMessages, x.sourceMessageId ≠ source.sourceMessageId)
    (hkey : s.sourceForKey source.messageKey = none) :
    Indexed { s with
      sourceMessages := s.sourceMessages.put source
      idempotency := s.idempotency.put (source.messageKey, source.sourceMessageId) } where
  entry x hx := by
    rcases Table.mem_put.mp hx with rfl | ⟨hx, _⟩
    · exact Table.mem_put_self
    · exact Table.mem_put_of_ne (hs.entry x hx) (Tables.sourceForKey_eq_none.mp hkey x hx)
  source e he := by
    rcases Table.mem_put.mp he with rfl | ⟨he, _⟩
    · exact ⟨source, Table.mem_put_self, rfl⟩
    · obtain ⟨x, hx, rfl⟩ := hs.source e he
      exact ⟨x, Table.mem_put_of_ne hx (hfresh x hx), rfl⟩

theorem indexed_removeSource (hs : s.Indexed) {source : SourceMessage}
    (hmem : source ∈ s.sourceMessages) :
    Indexed { s with
      toTables := s.toTables.removeSource source.sourceMessageId
      idempotency := s.idempotency.discard fun e => e.1 = source.messageKey } where
  entry x hx := by
    obtain ⟨hx, hne⟩ := Table.mem_discard.mp hx
    refine Table.mem_discard.mpr ⟨hs.entry x hx, decide_eq_false fun hk => ?_⟩
    have he : (x.messageKey, x.sourceMessageId) = (source.messageKey, source.sourceMessageId) :=
      Table.eq_of_key (hs.entry x hx) (hs.entry source hmem) hk
    exact of_decide_eq_false hne (Prod.mk.inj he).2
  source e he := by
    obtain ⟨he, hne⟩ := Table.mem_discard.mp he
    obtain ⟨x, hx, rfl⟩ := hs.source e he
    refine ⟨x, Table.mem_discard.mpr ⟨hx, decide_eq_false fun hid => ?_⟩, rfl⟩
    rw [Table.eq_of_key hx hmem hid] at hne
    exact of_decide_eq_false hne rfl

/-! ## The dense leg -/

theorem cosineDistance_eq (engine : SearchEngine) (a b : Vec) :
    cosineDistance engine a b = if a.length = b.length then .ok (engine.distance a b)
      else .error (.valueError ("vector length mismatch: " ++ toString a.length ++ " vs " ++
        toString b.length)) := by
  by_cases h : a.length = b.length
  · rw [cosineDistance, if_neg (not_not.mpr h), if_pos h]
    rfl
  · rw [cosineDistance, if_pos h, if_neg h]
    rfl

/-- The comparison fails only on a record of another length. -/
theorem mismatch_of_denseRanked {q : Vec} {modelName : String} {e : Exn} :
    ∀ {cs : List (EventChunk × Nat)}, s.denseRanked engine q modelName cs = .error e →
      ∃ c ∈ cs.map Prod.fst, ∃ r, s.embeddingRecords.find? (c.chunkId, modelName) = some r ∧
        q.length ≠ r.embedding.length
  | [], h => nomatch h
  | (c, index) :: cs, h => by
    rw [denseRanked] at h
    split at h
    · obtain ⟨c', hc', hr⟩ := mismatch_of_denseRanked h
      exact ⟨c', List.mem_cons_of_mem _ hc', hr⟩
    · next r hr =>
      rw [cosineDistance_eq] at h
      by_cases hl : q.length = r.embedding.length
      · rw [if_pos hl] at h
        cases hrest : s.denseRanked engine q modelName cs with
        | error e' =>
          obtain ⟨c', hc', hr'⟩ := mismatch_of_denseRanked hrest
          exact ⟨c', List.mem_cons_of_mem _ hc', hr'⟩
        | ok rest =>
          rw [hrest] at h
          exact nomatch h
      · exact ⟨c, List.mem_cons_self, r, hr, hl⟩

/-- What is compared has a record of the same length, and is kept in its order. -/
theorem of_denseRanked {q : Vec} {modelName : String} :
    ∀ {cs : List (EventChunk × Nat)} {out : List ((ℚ × Nat) × EventChunk)},
      s.denseRanked engine q modelName cs = .ok out →
      (out.map fun x => (x.2, x.1.2)).Sublist cs ∧
        (∀ c ∈ out.map Prod.snd, (s.embeddingRecords.find? (c.chunkId, modelName)).isSome) ∧
        ∀ c ∈ cs.map Prod.fst, ∀ r, s.embeddingRecords.find? (c.chunkId, modelName) = some r →
          q.length = r.embedding.length
  | [], out, h => by
    cases h
    simp
  | (c, index) :: cs, out, h => by
    rw [denseRanked] at h
    split at h
    · next hr =>
      obtain ⟨hsub, hrec, hlen⟩ := of_denseRanked h
      refine ⟨hsub.cons (c, index), hrec, fun c' hc' r hr' => ?_⟩
      rcases List.mem_cons.mp hc' with rfl | hc'
      · rw [hr] at hr'
        cases hr'
      · exact hlen c' hc' r hr'
    · next r hr =>
      rw [cosineDistance_eq] at h
      by_cases hl : q.length = r.embedding.length
      · rw [if_pos hl] at h
        cases hrest : s.denseRanked engine q modelName cs with
        | error e' =>
          rw [hrest] at h
          cases h
        | ok rest =>
          rw [hrest] at h
          obtain ⟨hsub, hrec, hlen⟩ := of_denseRanked hrest
          have hout : out = if engine.distance q r.embedding ≥ denseThreshold then rest
              else ((engine.distance q r.embedding, index), c) :: rest := by
            cases h
            rfl
          have hlen' : ∀ c' ∈ c :: cs.map Prod.fst, ∀ r',
              s.embeddingRecords.find? (c'.chunkId, modelName) = some r' →
                q.length = r'.embedding.length := by
            intro c' hc' r' hr'
            rcases List.mem_cons.mp hc' with rfl | hc'
            · rw [hr] at hr'
              cases hr'
              exact hl
            · exact hlen c' hc' r' hr'
          subst hout
          split
          · exact ⟨hsub.cons (c, index), hrec, hlen'⟩
          · refine ⟨hsub.cons_cons (c, index), fun c' hc' => ?_, hlen'⟩
            rcases List.mem_cons.mp hc' with rfl | hc'
            · exact Option.isSome_iff_exists.mpr ⟨r, hr⟩
            · exact hrec c' hc'
      · rw [if_neg hl] at h
        cases h

/-- The rows of a store that pass a test, without their positions. -/
theorem map_fst_filter_zipIdx {α : Type} (p : α → Bool) (rows : List α) (n : Nat) :
    ((rows.zipIdx n).filter fun e => p e.1).map Prod.fst = rows.filter p := by
  have hcomp : (fun e : α × Nat => p e.1) = p ∘ Prod.fst := rfl
  rw [hcomp, ← List.filter_map, List.zipIdx_map_fst]

theorem serves_denseCandidates (q : Vec) (modelName : String) (scope : SearchScope) :
    Serves (StoreKind.mock.backend engine)
      (RepoCall.Refused .mock (.denseCandidates q modelName scope) s.toTables)
      (.denseCandidates q modelName scope) s
      (reading s (s.denseCandidates engine q modelName scope)) := by
  have hr : RepoCall.Refused .mock (.denseCandidates q modelName scope) s.toTables ↔
      scope.community = "" ∨ s.toTables.VectorMismatch q modelName scope := by
    simp [RepoCall.Refused]
  rw [denseCandidates, requireCommunity_bind]
  by_cases hc : scope.community = ""
  · rw [if_pos hc]
    exact .of_error (hr.mpr (Or.inl hc))
  rw [if_neg hc]
  by_cases hlim : scope.limit ≤ 0
  · rw [if_pos hlim]
    refine .of_ok (fun h => ?_) ⟨List.nodup_nil, fun c hc => nomatch hc⟩ rfl fun _ => rfl
    rcases hr.mp h with h | ⟨h, -⟩
    · exact hc h
    · omega
  rw [if_neg hlim]
  set eligible := s.eventChunks.rows.zipIdx.filter fun e =>
    chunkInScope scope e.1 && e.1.embeddingStatus = .ready with heligible
  have hrows : eligible.map Prod.fst = s.eventChunks.rows.filter fun c =>
      chunkInScope scope c && c.embeddingStatus = .ready :=
    map_fst_filter_zipIdx (fun c => chunkInScope scope c && c.embeddingStatus = .ready) _ 0
  have hmem : ∀ c, c ∈ eligible.map Prod.fst ↔
      s.toTables.InScope scope c ∧ c.embeddingStatus = .ready := fun c => by
    simp [hrows, Tables.InScope, and_assoc]
  change Serves (StoreKind.mock.backend engine) _ (.denseCandidates q modelName scope) s
    (reading s (s.denseRanked engine q modelName eligible >>= fun ranked =>
    pure (((oldestFirst (fun e => toLex e.1) ranked).take scope.limit.toNat).map Prod.snd)))
  cases hd : s.denseRanked engine q modelName eligible with
  | error e =>
    obtain ⟨c, hcm, r, hfind, hne⟩ := mismatch_of_denseRanked hd
    exact .of_error (hr.mpr (Or.inr
      ⟨by omega, c, ((hmem c).mp hcm).1, ((hmem c).mp hcm).2, r, hfind, hne⟩))
  | ok out =>
    obtain ⟨hsub, hrec, hlen⟩ := of_denseRanked hd
    have hchunks : (out.map Prod.snd).Sublist (eligible.map Prod.fst) := by
      have hmap := hsub.map Prod.fst
      rwa [List.map_map] at hmap
    refine .of_ok (fun h => ?_) ⟨?_, fun c hcm => ?_⟩ rfl fun _ => rfl
    · rcases hr.mp h with h | ⟨-, c, hin, hready, r, hfind, hne⟩
      · exact hc h
      · exact hne (hlen c ((hmem c).mpr ⟨hin, hready⟩) r hfind)
    · have hnodup : (out.map Prod.snd).Nodup := by
        rw [hrows] at hchunks
        exact (s.eventChunks.rows_nodup.sublist List.filter_sublist).sublist hchunks
      rw [List.map_take]
      refine List.Nodup.sublist (List.take_sublist _ _) ?_
      exact (((List.perm_insertionSort _ out).map Prod.snd).nodup_iff).mpr hnodup
    · obtain ⟨p, hp, rfl⟩ := List.mem_map.mp hcm
      have hout : p.2 ∈ out.map Prod.snd :=
        List.mem_map_of_mem (mem_oldestFirst.mp (List.mem_of_mem_take hp))
      obtain ⟨hin, hready⟩ := (hmem p.2).mp (hchunks.mem hout)
      exact ⟨hin, hready, hrec _ hout⟩

theorem serves_sparseCandidates (queryText : String) (scope : SearchScope) :
    Serves (StoreKind.mock.backend engine)
      (RepoCall.Refused .mock (.sparseCandidates queryText scope) s.toTables)
      (.sparseCandidates queryText scope) s
      (reading s (s.sparseCandidates engine queryText scope)) := by
  have hr : scope.community = "" ↔
      RepoCall.Refused .mock (.sparseCandidates queryText scope) s.toTables := by
    simp [RepoCall.Refused]
  rw [sparseCandidates, requireCommunity_bind]
  by_cases hc : scope.community = ""
  · rw [if_pos hc]
    exact .of_error (hr.mp hc)
  rw [if_neg hc]
  by_cases hlim : scope.limit ≤ 0
  · rw [if_pos hlim]
    exact .of_ok (fun h => hc (hr.mpr h)) ⟨List.nodup_nil, fun c hc => nomatch hc⟩ rfl fun _ => rfl
  rw [if_neg hlim]
  set ranked := s.eventChunks.rows.zipIdx.filter fun e =>
    chunkInScope scope e.1 && overlap engine queryText e.1.chunkText ≠ 0 with hranked
  have hrows : ranked.map Prod.fst = s.eventChunks.rows.filter fun c =>
      chunkInScope scope c && overlap engine queryText c.chunkText ≠ 0 :=
    map_fst_filter_zipIdx
      (fun c => chunkInScope scope c && overlap engine queryText c.chunkText ≠ 0) _ 0
  refine .of_ok (fun h => hc (hr.mpr h)) ⟨?_, fun c hcm => ?_⟩ rfl fun _ => rfl
  · have hnodup : (ranked.map Prod.fst).Nodup := by
      rw [hrows]
      exact s.eventChunks.rows_nodup.sublist List.filter_sublist
    rw [List.map_take]
    refine List.Nodup.sublist (List.take_sublist _ _) ?_
    exact (((List.perm_insertionSort _ ranked).map Prod.fst).nodup_iff).mpr hnodup
  · obtain ⟨e, he, rfl⟩ := List.mem_map.mp hcm
    have hm : e.1 ∈ ranked.map Prod.fst :=
      List.mem_map_of_mem (mem_oldestFirst.mp (List.mem_of_mem_take he))
    simp only [hrows, List.mem_filter, Table.mem_rows, Bool.and_eq_true] at hm
    exact ⟨hm.1, hm.2.1⟩

/-! ## Every call -/

theorem serves_getOrCreate (hs : s.Indexed) {source : SourceMessage}
    (hfresh : ∀ x ∈ s.sourceMessages, x.sourceMessageId ≠ source.sourceMessageId) :
    (s.getOrCreateSourceMessage source).2.Indexed ∧
      Serves (StoreKind.mock.backend engine) False (.getOrCreateSourceMessage source) s
        (s.getOrCreateSourceMessage source) := by
  rw [getOrCreateSourceMessage_eq hs]
  cases hkey : s.sourceForKey source.messageKey with
  | some existing =>
    exact ⟨hs, .of_ok id ((RepoCall.returns_found hkey).mpr rfl) (RepoCall.effect_found hkey).symm
      fun _ => rfl⟩
  | none =>
    refine ⟨indexed_putSource hs hfresh hkey, .of_ok id ((RepoCall.returns_new hkey).mpr rfl)
      (RepoCall.effect_new hkey).symm fun h => ?_⟩
    have hmem : source ∈ s.sourceMessages := by
      rw [← show s.sourceMessages.put source = s.sourceMessages from
        congrArg Tables.sourceMessages h]
      exact Table.mem_put_self
    exact absurd rfl (hfresh source hmem)

theorem serves_hardDelete (hs : s.Indexed) (id community : String) :
    (handle engine (.hardDeleteSourceMessage id community) s).2.Indexed ∧
      Serves (StoreKind.mock.backend engine)
        (RepoCall.Refused .mock (.hardDeleteSourceMessage id community) s.toTables)
        (.hardDeleteSourceMessage id community) s
        (handle engine (.hardDeleteSourceMessage id community) s) := by
  rw [handle, hardDeleteSourceMessage, requireCommunity_bind]
  by_cases hc : community = ""
  · rw [if_pos hc]
    exact ⟨hs, .of_error (Or.inl hc)⟩
  rw [if_neg hc]
  cases ho : s.ownedSource id community with
  | none => exact ⟨hs, .of_error (Or.inr (Or.inl ho))⟩
  | some source =>
    obtain ⟨hmem, rfl, hcomm⟩ := Tables.ownedSource_eq_some.mp ho
    refine ⟨indexed_removeSource hs hmem, .of_ok ?_ rfl rfl fun h => ?_⟩
    · rintro (h | h | ⟨h, -⟩)
      · exact hc h
      · rw [h] at ho
        cases ho
      · exact h rfl
    · have hmem' : source ∈ (s.toTables.removeSource source.sourceMessageId).sourceMessages := by
        rw [show s.toTables.removeSource source.sourceMessageId = s.toTables from h]
        exact hmem
      exact absurd rfl (of_decide_eq_false (Table.mem_discard.mp hmem').2)

theorem serves_saveEmbeddingRecords (hs : s.Indexed) {rs : List EmbeddingRecord}
    (hlen : rs.length ≤ 1) :
    (s.saveEmbeddingRecords rs).2.Indexed ∧
      Serves (StoreKind.mock.backend engine)
        (RepoCall.Refused .mock (.saveEmbeddingRecords rs) s.toTables) (.saveEmbeddingRecords rs) s
        (s.saveEmbeddingRecords rs) := by
  match rs, hlen with
  | [], _ =>
    exact ⟨⟨hs.entry, hs.source⟩, .of_ok (by simp [RepoCall.Refused]) trivial rfl fun _ => rfl⟩
  | [r], _ =>
    by_cases hdup : (s.embeddingRecords.find? r.chunkModel).isSome
    · rw [saveEmbeddingRecords, insertAllNew, insertNew_of_taken hdup]
      exact ⟨⟨hs.entry, hs.source⟩, .of_error ⟨r, List.mem_singleton_self r, hdup⟩⟩
    · have hfresh : ∀ v ∈ [r], ∀ x ∈ s.embeddingRecords, x.chunkModel ≠ v.chunkModel := by
        intro v hv
        rw [List.mem_singleton.mp hv]
        exact Table.find?_eq_none_iff.mp (by simpa using hdup)
      have hnodup : ([r].map EmbeddingRecord.chunkModel).Nodup := List.nodup_singleton _
      rw [saveEmbeddingRecords, insertAllNew_of_fresh hnodup hfresh]
      refine ⟨⟨hs.entry, hs.source⟩, .of_ok ?_ trivial rfl fun h => ext_tables rfl h⟩
      rintro ⟨v, hv, h⟩
      rw [List.mem_singleton.mp hv] at h
      exact hdup h

/-- The in-memory store serves every call made under its guard. -/
theorem serves (hs : s.Indexed) {c : RepoCall} (hg : c.Guard s.toTables) :
    (handle engine c s).2.Indexed ∧
      Serves (StoreKind.mock.backend engine) (c.Refused .mock s.toTables) c s
        (handle engine c s) := by
  cases c with
  | getOrCreateSourceMessage source => exact serves_getOrCreate hs hg
  | saveNote note =>
    exact ⟨⟨hs.entry, hs.source⟩, .of_ok id trivial rfl fun h => ext_tables rfl h⟩
  | saveEventChunks chunks =>
    exact ⟨⟨hs.entry, hs.source⟩, .of_ok id trivial rfl fun h => ext_tables rfl h⟩
  | listSourceMessages community limit =>
    refine ⟨hs, ?_⟩
    rw [handle, listSourceMessages, requireCommunity_bind]
    refine .of_check (fun h => Or.inr (Or.inl h)) fun hc => ?_
    refine .of_check (fun h => Or.inr (Or.inr h)) fun hlim => ?_
    exact .of_ok (by simp [RepoCall.Refused, hc, hlim]) rfl rfl fun _ => rfl
  | listRecentDrafts community limit =>
    refine ⟨hs, ?_⟩
    rw [handle, listRecentDrafts, requireCommunity_bind]
    refine .of_check (fun h => Or.inr (Or.inl h)) fun hc => ?_
    refine .of_check (fun h => Or.inr (Or.inr h)) fun hlim => ?_
    exact .of_ok (by simp [RepoCall.Refused, hc]; omega) rfl rfl fun _ => rfl
  | getNoteBySourceMessageId id => exact ⟨hs, .of_ok (fun h => h) rfl rfl fun _ => rfl⟩
  | getActiveNoteForExternalMessage chat msg community =>
    refine ⟨hs, ?_⟩
    rw [handle, getActiveNoteForExternalMessage, requireCommunity_bind]
    exact .of_check id fun hc => .of_ok hc rfl rfl fun _ => rfl
  | countEventChunksForSource id => exact ⟨hs, .of_ok (fun h => h) rfl rfl fun _ => rfl⟩
  | getActiveChunkForNote noteId community =>
    refine ⟨hs, ?_⟩
    rw [handle, getActiveChunkForNote, requireCommunity_bind]
    exact .of_check id fun hc => .of_ok hc rfl rfl fun _ => rfl
  | saveEmbeddingRecords records => exact serves_saveEmbeddingRecords hs hg.1
  | setChunkEmbeddingStatus id status =>
    obtain ⟨x, hx, rfl⟩ := hg
    rw [handle, setChunkEmbeddingStatus, Table.find?_key hx]
    exact ⟨⟨hs.entry, hs.source⟩, .of_ok (fun h => h) trivial rfl fun h => ext_tables rfl h⟩
  | markNote state id community =>
    obtain ⟨-, hc, ⟨n, hn, hid, hcomm, -⟩, -⟩ := hg
    rw [handle, markNote, requireCommunity_bind, if_neg hc,
      Tables.ownedNote_eq_some.mpr ⟨hn, hid, hcomm⟩]
    exact ⟨⟨hs.entry, hs.source⟩, .of_ok (fun h => h) trivial rfl fun h => ext_tables rfl h⟩
  | markChunk state id community =>
    obtain ⟨-, hc, x, hx, hid, hcomm, -⟩ := hg
    rw [handle, markChunk, requireCommunity_bind, if_neg hc,
      Tables.ownedChunk_eq_some.mpr ⟨hx, hid, hcomm⟩]
    exact ⟨⟨hs.entry, hs.source⟩, .of_ok (fun h => h) trivial rfl fun h => ext_tables rfl h⟩
  | hardDeleteSourceMessage id community => exact serves_hardDelete hs id community
  | listFailedEventChunks community limit =>
    refine ⟨hs, ?_⟩
    rw [handle, listFailedEventChunks, requireCommunity_bind]
    refine .of_check (fun h => Or.inl h) fun hc => .of_check (fun h => Or.inr h) fun hlim => ?_
    exact .of_ok (by simp [RepoCall.Refused, hc, hlim]) rfl rfl fun _ => rfl
  | saveIndexingDeadLetter record =>
    rw [handle, saveIndexingDeadLetter, insertNew_of_fresh hg.1]
    exact ⟨⟨hs.entry, hs.source⟩, .of_ok id trivial rfl fun h => ext_tables rfl h⟩
  | denseCandidates queryEmbedding modelName scope =>
    exact ⟨hs, serves_denseCandidates queryEmbedding modelName scope⟩
  | sparseCandidates queryText scope => exact ⟨hs, serves_sparseCandidates queryText scope⟩
  | saveQuery query =>
    rw [handle, saveQuery, insertNew_of_fresh hg]
    exact ⟨⟨hs.entry, hs.source⟩, .of_ok id trivial rfl fun h => ext_tables rfl h⟩
  | saveRetrievalHits hits =>
    rw [handle, saveRetrievalHits,
      insertAllNew_of_fresh hg.1 fun v hv x hx => ((hg.2.2 v hv).1 x hx).1]
    exact ⟨⟨hs.entry, hs.source⟩, .of_ok id trivial rfl fun h => ext_tables rfl h⟩
  | saveAnswerTrace trace =>
    rw [handle, saveAnswerTrace, insertNew_of_fresh fun x hx => (hg.1 x hx).2]
    exact ⟨⟨hs.entry, hs.source⟩, .of_ok id trivial rfl fun h => ext_tables rfl h⟩
  | saveChatRouteDecision decision =>
    rw [handle, saveChatRouteDecision, insertNew_of_fresh hg.1]
    exact ⟨⟨hs.entry, hs.source⟩, .of_ok id trivial rfl fun h => ext_tables rfl h⟩
  | saveChatQueryRewrite rewrite =>
    rw [handle, saveChatQueryRewrite, insertNew_of_fresh fun x hx => (hg.1 x hx).2,
      requireDecision, if_pos (Table.isSome_find?_iff.mpr hg.2)]
    exact ⟨⟨hs.entry, hs.source⟩, .of_ok id trivial rfl fun h => ext_tables rfl h⟩
  | saveChatKnowledgeSearch search =>
    rw [handle, saveChatKnowledgeSearch, insertNew_of_fresh fun x hx => (hg.1 x hx).2,
      requireDecision, if_pos (Table.isSome_find?_iff.mpr hg.2)]
    exact ⟨⟨hs.entry, hs.source⟩, .of_ok id trivial rfl fun h => ext_tables rfl h⟩

end MockDomainStore

end DiaryMemory
