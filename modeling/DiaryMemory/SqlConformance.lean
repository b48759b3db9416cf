import DiaryMemory.Serving

/-!
# The SQL stores serve their calls

The declared references follow from the links once every dead letter names a source row
that is there (`Linked.references`), so a statement made under its guard passes its
check. The one that may not is the last of a hard delete : no statement removes the dead
letters of the source row (`hardDeleteSourceMessage_eq`). `SqlDomainStore.serves` puts the
calls together.
-/

namespace DiaryMemory

namespace Tables

variable {T : Tables}

/-- Every dead letter names a source row that is there. -/
def DeadLettersNamed (T : Tables) : Prop :=
  ∀ d ∈ T.indexingDeadLetters, ∃ s ∈ T.sourceMessages, s.sourceMessageId = d.sourceMessageId

theorem Linked.references (h : T.Linked) (hd : T.DeadLettersNamed) : T.References where
  note_source n hn := by
    obtain ⟨s, hs, ho⟩ := h.note_source n hn
    exact Table.isSome_find?_iff.mpr ⟨s, hs, ho.source⟩
  chunk_note c hc := by
    obtain ⟨n, hn, ho⟩ := h.chunk_note c hc
    exact Table.isSome_find?_iff.mpr ⟨n, hn, ho.note⟩
  chunk_source c hc := by
    obtain ⟨n, hn, ho⟩ := h.chunk_note c hc
    obtain ⟨s, hs, hos⟩ := h.note_source n hn
    exact Table.isSome_find?_iff.mpr ⟨s, hs, hos.source.trans ho.source⟩
  record_chunk r hr := by
    obtain ⟨c, hc, ho⟩ := h.record_chunk r hr
    exact Table.isSome_find?_iff.mpr ⟨c, hc, ho.chunk⟩
  record_source r hr := by
    obtain ⟨c, hc, ho⟩ := h.record_chunk r hr
    obtain ⟨n, hn, hon⟩ := h.chunk_note c hc
    obtain ⟨s, hs, hos⟩ := h.note_source n hn
    exact Table.isSome_find?_iff.mpr ⟨s, hs, hos.source.trans (hon.source.trans ho.source)⟩
  hit_query x hx := Table.isSome_find?_iff.mpr (h.hit_query x hx)
  hit_chunk x hx := Table.isSome_find?_iff.mpr (h.hit_chunk x hx)
  trace_query x hx := Table.isSome_find?_iff.mpr (h.trace_query x hx)
  decision_query x hx q hq := Table.isSome_find?_iff.mpr (h.decision_query x hx q hq)
  rewrite_decision x hx := Table.isSome_find?_iff.mpr (h.rewrite_decision x hx)
  search_decision x hx := Table.isSome_find?_iff.mpr (h.search_decision x hx)
  deadLetter_source x hx := Table.isSome_find?_iff.mpr (hd x hx)

theorem References.deadLettersNamed (h : T.References) : T.DeadLettersNamed := fun d hd =>
  Table.isSome_find?_iff.mp (h.deadLetter_source d hd)

/-- Only a hard delete removes a source row. -/
theorem DeadLettersNamed.effect (h : T.DeadLettersNamed) {c : RepoCall} (hg : c.Guard T)
    (hc : ∀ id community, c ≠ .hardDeleteSourceMessage id community) :
    (c.effect T).DeadLettersNamed := by
  cases c with
  | getOrCreateSourceMessage s =>
    rw [RepoCall.effect]
    split
    · exact h
    · exact fun d hd => Table.exists_put (h d hd)
  | saveIndexingDeadLetter d => exact Table.forall_put h hg.2
  | hardDeleteSourceMessage id community => exact absurd rfl (hc id community)
  | _ => exact h

end Tables

namespace SqlDomainStore

variable {dialect : SqlDialect} {engine : SearchEngine} {T : Tables}

/-! ## Statements -/

theorem statement_ok {change : Tables → Tables} (h : (change T).References) :
    statement dialect change T = .ok (change T) :=
  if_pos h

theorem insert_ok {conflict : Prop} [Decidable conflict] {change : Tables → Tables}
    (hc : ¬ conflict) (h : (change T).References) :
    insert dialect conflict change T = .ok (change T) := by
  rw [insert, if_neg hc, statement_ok h]

theorem not_taken {K V : Type} [DecidableEq K] {key : V → K} {t : Table key} {k : K}
    (h : ∀ x ∈ t, key x ≠ k) : ¬ (t.find? k).isSome = true := by
  rw [Table.find?_eq_none_iff.mpr h]
  simp

/-! ## Inserts of several rows -/

/-- Hits with new identifiers and a new triple each are inserted one after the other. -/
theorem insertMany_hits : ∀ {hs : List RetrievalHit} {T : Tables}, T.Linked →
    T.DeadLettersNamed → (hs.map RetrievalHit.retrievalHitId).Nodup →
    (hs.map fun h => (h.queryId, h.chunkId, h.leg)).Nodup →
    (∀ h ∈ hs, (∀ x ∈ T.retrievalHits, x.retrievalHitId ≠ h.retrievalHitId ∧
      (x.queryId, x.chunkId, x.leg) ≠ (h.queryId, h.chunkId, h.leg)) ∧
      (∃ q ∈ T.queries, q.queryId = h.queryId) ∧ ∃ c ∈ T.eventChunks, c.chunkId = h.chunkId) →
    saveRetrievalHits dialect hs T = .ok (T.putHits hs)
  | [], _, _, _, _, _, _ => rfl
  | h :: hs, T, hl, hd, hids, htriples, hnew => by
    obtain ⟨hid, hids⟩ := List.nodup_cons.mp hids
    obtain ⟨htriple, htriples⟩ := List.nodup_cons.mp htriples
    obtain ⟨hfresh, hquery, hchunk⟩ := hnew h List.mem_cons_self
    have hl' : (T.putHits [h]).Linked :=
      { hl with
        hit_query := Table.forall_put hl.hit_query hquery
        hit_chunk := Table.forall_put hl.hit_chunk hchunk }
    have hone : insert dialect ((T.retrievalHits.find? h.retrievalHitId).isSome ∨
        ∃ h' ∈ T.retrievalHits.rows,
          (h'.queryId, h'.chunkId, h'.leg) = (h.queryId, h.chunkId, h.leg))
        (fun T => { T with retrievalHits := T.retrievalHits.put h }) T =
        .ok (T.putHits [h]) := by
      refine insert_ok ?_ (hl'.references hd)
      rintro (hk | ⟨x, hx, he⟩)
      · exact not_taken (fun x hx => (hfresh x hx).1) hk
      · exact (hfresh x hx).2 he
    rw [saveRetrievalHits, insertMany, hone]
    refine insertMany_hits hl' hd hids htriples fun h' hh' => ?_
    obtain ⟨hfresh', hquery', hchunk'⟩ := hnew h' (List.mem_cons_of_mem _ hh')
    refine ⟨fun x hx => ?_, hquery', hchunk'⟩
    rcases Table.mem_put.mp hx with rfl | ⟨hx, _⟩
    · exact ⟨fun he => hid (List.mem_map.mpr ⟨h', hh', he.symm⟩),
        fun he => htriple (List.mem_map.mpr ⟨h', hh', he.symm⟩)⟩
    · exact hfresh' x hx

theorem saveEventChunks_eq : ∀ {chunks : List EventChunk},
    (RepoCall.saveEventChunks chunks).Guard T → (T.putChunks chunks).References →
      saveEventChunks dialect chunks T = .ok (T.putChunks chunks)
  | [], _, _ => rfl
  | [chunk], hg, hr => by
    have hfresh := (hg.2 chunk List.mem_cons_self).1
    have hone : insert dialect ((T.eventChunks.find? chunk.chunkId).isSome)
        (fun T => T.putChunk chunk) T = .ok (T.putChunk chunk) :=
      insert_ok (not_taken fun x hx => (hfresh x hx).1) hr
    rw [saveEventChunks, insertMany, hone]
    rfl
  | _ :: _ :: _, hg, _ => absurd hg.1 (by simp)

/-! ## Hard deletes -/

/-- The last delete asks for the community too, which the row has. -/
theorem dropOwnedSource_eq {source : SourceMessage} (hs : source ∈ T.sourceMessages) :
    dropOwnedSource source.sourceMessageId source.communityId T =
      T.dropSource source.sourceMessageId := by
  have h : T.sourceMessages.discard (fun s =>
      decide (s.sourceMessageId = source.sourceMessageId ∧ s.communityId = source.communityId)) =
      T.sourceMessages.discard fun s => decide (s.sourceMessageId = source.sourceMessageId) :=
    Table.discard_congr fun x hx => by
      by_cases he : x.sourceMessageId = source.sourceMessageId
      · simp [Table.eq_of_key hx hs he]
      · simp [he]
  rw [dropOwnedSource, h]
  rfl

theorem countP_owned {source : SourceMessage} (hs : source ∈ T.sourceMessages) :
    (T.sourceMessages.rows.countP fun s =>
      s.sourceMessageId = source.sourceMessageId ∧ s.communityId = source.communityId) =
      T.sourceMessages.rows.countP fun s => s.sourceMessageId = source.sourceMessageId :=
  List.countP_congr fun x hx => by
    by_cases he : x.sourceMessageId = source.sourceMessageId
    · simp [Table.eq_of_key hx hs he]
    · simp [he]

theorem references_dropSource_iff (h : T.Linked) (hd : T.DeadLettersNamed) (id : String) :
    (T.removeSource id).References ↔ ∀ d ∈ T.indexingDeadLetters, d.sourceMessageId ≠ id := by
  constructor
  · intro hr d hdm hid
    obtain ⟨s, hs, he⟩ := hr.deadLettersNamed d hdm
    exact of_decide_eq_false (Table.mem_discard.mp hs).2 (he.trans hid)
  · intro hne
    refine (h.removeSource id).references fun d hdm => ?_
    obtain ⟨s, hs, he⟩ := hd d hdm
    exact ⟨s, Table.mem_discard.mpr ⟨hs, decide_eq_false (he ▸ hne d hdm)⟩, he⟩

/-- A hard delete of an owned row fails exactly when a dead letter names the row. -/
theorem hardDeleteSourceMessage_eq (h : T.Linked) (hd : T.DeadLettersNamed)
    {source : SourceMessage} (hs : source ∈ T.sourceMessages) (hc : source.communityId ≠ "") :
    hardDeleteSourceMessage dialect source.sourceMessageId source.communityId T =
      if ∀ d ∈ T.indexingDeadLetters.rows, d.sourceMessageId ≠ source.sourceMessageId then
        .ok (T.removalTally source.sourceMessageId, T.removeSource source.sourceMessageId)
      else .error dialect.foreignKeyViolation := by
  have howned : T.ownedSource source.sourceMessageId source.communityId = some source :=
    Tables.ownedSource_eq_some.mpr ⟨hs, rfl, rfl⟩
  have hcount := countP_owned hs
  have hdrop : dropOwnedSource source.sourceMessageId source.communityId
      ((((T.dropHits source.sourceMessageId).dropRecords source.sourceMessageId).dropChunks
        source.sourceMessageId).dropNotes source.sourceMessageId) =
      T.removeSource source.sourceMessageId := dropOwnedSource_eq hs
  rw [hardDeleteSourceMessage, requireCommunity_bind, if_neg hc, howned]
  generalize source.sourceMessageId = id at hcount hdrop
  obtain ⟨h3, h4⟩ := h.removal id
  have e1 : statement dialect (fun T => T.dropHits id) T = .ok (T.dropHits id) :=
    statement_ok ((h.dropHits id).references hd)
  have e2 : statement dialect (fun T => T.dropRecords id) (T.dropHits id) = .ok _ :=
    statement_ok (((h.dropHits id).dropRecords id).references hd)
  have e3 : statement dialect (fun T => T.dropChunks id) ((T.dropHits id).dropRecords id) = .ok _ :=
    statement_ok (h3.references hd)
  have e4 : statement dialect (fun T => T.dropNotes id)
      (((T.dropHits id).dropRecords id).dropChunks id) = .ok _ :=
    statement_ok (h4.references hd)
  simp only [e1, e2, e3, e4, bind, Except.bind]
  rw [statement, hdrop]
  simp only [references_dropSource_iff h hd, Table.mem_rows]
  by_cases hdl : ∀ d ∈ T.indexingDeadLetters, d.sourceMessageId ≠ id
  · rw [if_pos hdl, if_pos hdl]
    refine congrArg (fun tally => Except.ok (tally, T.removeSource id)) ?_
    rw [HardDeleteOutcome.mk.injEq]
    exact ⟨hcount, rfl, rfl, rfl, rfl⟩
  · rw [if_neg hdl, if_neg hdl]
    rfl

/-! ## Every call -/

theorem serves_hardDelete (h : T.Linked) (hr : T.References) (id community : String) :
    (handle dialect engine (.hardDeleteSourceMessage id community) T).2.References ∧
      Serves ((StoreKind.sql dialect).backend engine)
        (RepoCall.Refused (.sql dialect) (.hardDeleteSourceMessage id community) T)
        (.hardDeleteSourceMessage id community) T
        (handle dialect engine (.hardDeleteSourceMessage id community) T) := by
  rw [handle]
  by_cases hc : community = ""
  · rw [hardDeleteSourceMessage, requireCommunity_bind, if_pos hc]
    exact ⟨hr, .of_error (Or.inl hc)⟩
  cases ho : T.ownedSource id community with
  | none =>
    rw [hardDeleteSourceMessage, requireCommunity_bind, if_neg hc, ho]
    exact ⟨hr, .of_error (Or.inr (Or.inl ho))⟩
  | some source =>
    obtain ⟨hs, rfl, rfl⟩ := Tables.ownedSource_eq_some.mp ho
    rw [hardDeleteSourceMessage_eq h hr.deadLettersNamed hs hc]
    by_cases hdl : ∀ d ∈ T.indexingDeadLetters.rows, d.sourceMessageId ≠ source.sourceMessageId
    · rw [if_pos hdl]
      refine ⟨(references_dropSource_iff h hr.deadLettersNamed _).mpr hdl,
        .of_ok ?_ rfl rfl fun he => he⟩
      rintro (he | he | ⟨-, d, hd, he⟩)
      · exact hc he
      · rw [he] at ho
        cases ho
      · exact hdl d hd he
    · rw [if_neg hdl]
      refine ⟨hr, .of_error (Or.inr (Or.inr ⟨nofun, ?_⟩))⟩
      push Not at hdl
      exact hdl

theorem serves_saveEmbeddingRecords (h : T.Linked) (hr : T.References)
    {rs : List EmbeddingRecord} (hg : (RepoCall.saveEmbeddingRecords rs).Guard T) :
    (writing T (saveEmbeddingRecords dialect rs T)).2.References ∧
      Serves ((StoreKind.sql dialect).backend engine)
        (RepoCall.Refused (.sql dialect) (.saveEmbeddingRecords rs) T) (.saveEmbeddingRecords rs) T
        (writing T (saveEmbeddingRecords dialect rs T)) := by
  have heffect := (h.effect hg).references (hr.deadLettersNamed.effect hg nofun)
  match rs, hg with
  | [], _ => exact ⟨hr, .of_ok (by simp [RepoCall.Refused]) trivial rfl fun _ => rfl⟩
  | [r], hg =>
    have hfresh := (hg.2 r List.mem_cons_self).1
    by_cases hdup : (T.embeddingRecords.find? r.chunkModel).isSome
    · rw [saveEmbeddingRecords, insertMany, insert, if_pos (Or.inl hdup)]
      exact ⟨hr, .of_error ⟨r, List.mem_singleton_self r, hdup⟩⟩
    · have hone : insert dialect ((T.embeddingRecords.find? r.chunkModel).isSome ∨
          ∃ r' ∈ T.embeddingRecords.rows, r'.embeddingRecordId = r.embeddingRecordId)
          (fun T => { T with embeddingRecords := T.embeddingRecords.put r }) T =
          .ok (T.putRecords [r]) := by
        refine insert_ok ?_ heffect
        rintro (hk | ⟨x, hx, he⟩)
        · exact hdup hk
        · exact hfresh x hx he
      rw [saveEmbeddingRecords, insertMany, hone]
      refine ⟨heffect, .of_ok ?_ trivial rfl fun he => he⟩
      rintro ⟨v, hv, he⟩
      rw [List.mem_singleton.mp hv] at he
      exact hdup he

/-- A join with the records of one model keeps the chunks apart. -/
theorem nodup_joined (T : Tables) (modelName : String) :
    ((T.eventChunks.rows.filterMap fun c =>
      (T.embeddingRecords.find? (c.chunkId, modelName)).map fun r => (c, r)).map Prod.fst).Nodup := by
  have hguard : (fun c : EventChunk => Option.map Prod.fst
      ((T.embeddingRecords.find? (c.chunkId, modelName)).map fun r => (c, r))) =
      Option.guard fun c => (T.embeddingRecords.find? (c.chunkId, modelName)).isSome := by
    funext c
    cases h : T.embeddingRecords.find? (c.chunkId, modelName) <;> simp [Option.guard, h]
  rw [List.map_filterMap, hguard, List.filterMap_eq_filter]
  exact T.eventChunks.rows_nodup.sublist List.filter_sublist

theorem serves_denseCandidates (q : Vec) (modelName : String) (scope : SearchScope) :
    Serves ((StoreKind.sql dialect).backend engine)
      (RepoCall.Refused (.sql dialect) (.denseCandidates q modelName scope) T)
      (.denseCandidates q modelName scope) T
      (reading T (denseCandidates dialect engine q modelName scope T)) := by
  cases dialect with
  | sqlite => exact .of_error (Or.inl rfl)
  | postgres =>
    rw [denseCandidates, requireCommunity_bind]
    refine .of_check (fun h => Or.inr (Or.inl h)) fun hc => ?_
    have hok : ¬ RepoCall.Refused (.sql .postgres) (.denseCandidates q modelName scope) T := by
      simp [RepoCall.Refused, hc]
    by_cases hlim : scope.limit ≤ 0
    · rw [if_pos hlim]
      exact .of_ok hok ⟨List.nodup_nil, fun c hc => nomatch hc⟩ rfl fun _ => rfl
    rw [if_neg hlim]
    set joined := T.eventChunks.rows.filterMap fun c =>
      (T.embeddingRecords.find? (c.chunkId, modelName)).map fun r => (c, r) with hjoined
    have hmem : ∀ cr ∈ joined, cr.1 ∈ T.eventChunks ∧
        (T.embeddingRecords.find? (cr.1.chunkId, modelName)).isSome := by
      intro cr hcr
      obtain ⟨c, hcm, he⟩ := List.mem_filterMap.mp hcr
      obtain ⟨r, hfind, rfl⟩ := Option.map_eq_some_iff.mp he
      exact ⟨hcm, Option.isSome_iff_exists.mpr ⟨r, hfind⟩⟩
    refine .of_ok hok ⟨?_, fun c hcm => ?_⟩ rfl fun _ => rfl
    · rw [List.map_take]
      refine List.Nodup.sublist (List.take_sublist _ _) ?_
      refine (((List.perm_insertionSort _ _).map Prod.fst).nodup_iff).mpr ?_
      exact (nodup_joined T modelName).sublist (List.Sublist.map _ List.filter_sublist)
    · obtain ⟨cr, hcr, rfl⟩ := List.mem_map.mp hcm
      have hrow := mem_oldestFirst.mp (List.mem_of_mem_take hcr)
      simp only [List.mem_filter, Bool.and_eq_true, decide_eq_true_eq] at hrow
      obtain ⟨hin, hrec⟩ := hmem cr hrow.1
      exact ⟨⟨hin, hrow.2.1⟩, hrow.2.2, hrec⟩

theorem serves_sparseCandidates (queryText : String) (scope : SearchScope) :
    Serves ((StoreKind.sql dialect).backend engine)
      (RepoCall.Refused (.sql dialect) (.sparseCandidates queryText scope) T)
      (.sparseCandidates queryText scope) T
      (reading T (sparseCandidates dialect engine queryText scope T)) := by
  cases dialect with
  | sqlite => exact .of_error (Or.inl rfl)
  | postgres =>
    rw [sparseCandidates, requireCommunity_bind]
    refine .of_check (fun h => Or.inr h) fun hc => ?_
    have hok : ¬ RepoCall.Refused (.sql .postgres) (.sparseCandidates queryText scope) T := by
      simp [RepoCall.Refused, hc]
    split
    · exact .of_ok hok ⟨List.nodup_nil, fun c hc => nomatch hc⟩ rfl fun _ => rfl
    · refine .of_ok hok ⟨?_, fun c hcm => ?_⟩ rfl fun _ => rfl
      · exact (nodup_take_sort _ (T.eventChunks.rows_nodup.sublist List.filter_sublist)).1
      · have hm := mem_oldestFirst.mp (List.mem_of_mem_take hcm)
        simp only [List.mem_filter, Table.mem_rows, Bool.and_eq_true] at hm
        exact ⟨hm.1, hm.2.1⟩

theorem serves_getOrCreate (hr : T.References) {source : SourceMessage}
    (hg : (RepoCall.getOrCreateSourceMessage source).Guard T)
    (heffect : ((RepoCall.getOrCreateSourceMessage source).effect T).References) :
    (returning T (getOrCreateSourceMessage dialect source T)).2.References ∧
      Serves ((StoreKind.sql dialect).backend engine) False (.getOrCreateSourceMessage source) T
        (returning T (getOrCreateSourceMessage dialect source T)) := by
  have hfind : T.sourceMessages.find? source.sourceMessageId = none :=
    Table.find?_eq_none_iff.mpr hg
  unfold getOrCreateSourceMessage
  rw [hfind]
  cases hkey : T.sourceForKey source.messageKey with
  | some existing =>
    exact ⟨hr, .of_ok id ((RepoCall.returns_found hkey).mpr rfl) (RepoCall.effect_found hkey).symm
      fun _ => rfl⟩
  | none =>
    rw [RepoCall.effect_new hkey] at heffect
    exact ⟨heffect, .of_ok id ((RepoCall.returns_new hkey).mpr rfl) (RepoCall.effect_new hkey).symm
      fun he => he⟩

/-- A single write that ends as its effect is served. -/
theorem serves_write {c : RepoCall} {r : Except Exn (RepoReply c) × SqlDomainStore}
    {v : RepoReply c} (hr : r = (.ok v, c.effect T)) (hok : ¬ c.Refused (.sql dialect) T)
    (hv : c.Returns T v) (heffect : (c.effect T).References) :
    r.2.References ∧
      Serves ((StoreKind.sql dialect).backend engine) (c.Refused (.sql dialect) T) c T r := by
  subst hr
  exact ⟨heffect, .of_ok hok hv rfl fun he => he⟩

/-- A SQL store serves every call made under its guard. -/
theorem serves (h : T.Linked) (hr : T.References) {c : RepoCall} (hg : c.Guard T) :
    (handle dialect engine c T).2.References ∧
      Serves ((StoreKind.sql dialect).backend engine) (c.Refused (.sql dialect) T) c T
        (handle dialect engine c T) := by
  have heffect : (∀ id community, c ≠ .hardDeleteSourceMessage id community) →
      (c.effect T).References := fun hc =>
    (h.effect hg).references (hr.deadLettersNamed.effect hg hc)
  cases c with
  | getOrCreateSourceMessage source => exact serves_getOrCreate hr hg (heffect nofun)
  | saveNote note =>
    have hw : saveNote dialect note T = .ok (T.putNote note) :=
      insert_ok (not_taken fun x hx => (hg.1 x hx).1) (heffect nofun)
    exact serves_write (v := ()) (congrArg (writing T) hw) id trivial (heffect nofun)
  | saveEventChunks chunks =>
    have hw : saveEventChunks dialect chunks T = .ok (T.putChunks chunks) :=
      saveEventChunks_eq hg (heffect nofun)
    exact serves_write (v := ()) (congrArg (writing T) hw) id trivial (heffect nofun)
  | listSourceMessages community limit =>
    refine ⟨hr, ?_⟩
    cases dialect with
    | sqlite => exact .of_error (Or.inl rfl)
    | postgres =>
      rw [handle, listSourceMessages, requireCommunity_bind]
      refine .of_check (fun h => Or.inr (Or.inl h)) fun hc =>
        .of_check (fun h => Or.inr (Or.inr h)) fun hlim => ?_
      exact .of_ok (by simp [RepoCall.Refused, hc, hlim]) rfl rfl fun _ => rfl
  | listRecentDrafts community limit =>
    refine ⟨hr, ?_⟩
    cases dialect with
    | sqlite => exact .of_error (Or.inl rfl)
    | postgres =>
      rw [handle, listRecentDrafts, requireCommunity_bind]
      refine .of_check (fun h => Or.inr (Or.inl h)) fun hc =>
        .of_check (fun h => Or.inr (Or.inr h)) fun hlim => ?_
      exact .of_ok (by simp [RepoCall.Refused, hc]; omega) rfl rfl fun _ => rfl
  | getNoteBySourceMessageId id => exact ⟨hr, .of_ok (fun h => h) rfl rfl fun _ => rfl⟩
  | getActiveNoteForExternalMessage chat msg community =>
    refine ⟨hr, ?_⟩
    rw [handle, getActiveNoteForExternalMessage, requireCommunity_bind]
    exact .of_check id fun hc => .of_ok hc rfl rfl fun _ => rfl
  | countEventChunksForSource id => exact ⟨hr, .of_ok (fun h => h) rfl rfl fun _ => rfl⟩
  | getActiveChunkForNote noteId community =>
    refine ⟨hr, ?_⟩
    rw [handle, getActiveChunkForNote, requireCommunity_bind]
    exact .of_check id fun hc => .of_ok hc rfl rfl fun _ => rfl
  | saveEmbeddingRecords records => exact serves_saveEmbeddingRecords h hr hg
  | setChunkEmbeddingStatus id status =>
    obtain ⟨x, hx, rfl⟩ := hg
    have hw : setChunkEmbeddingStatus x.chunkId status T = .ok (T.setStatus x.chunkId status) := by
      rw [setChunkEmbeddingStatus, Table.find?_key hx]
      rfl
    exact serves_write (v := ()) (congrArg (writing T) hw) (fun h => h) trivial (heffect nofun)
  | markNote state id community =>
    obtain ⟨-, hc, ⟨n, hn, hid, hcomm, -⟩, -⟩ := hg
    have hw : markNote state id community T = .ok (T.markNote state id) := by
      rw [markNote, requireCommunity_bind, if_neg hc,
        Tables.ownedNote_eq_some.mpr ⟨hn, hid, hcomm⟩]
      rfl
    exact serves_write (v := ()) (congrArg (writing T) hw) (fun h => h) trivial (heffect nofun)
  | markChunk state id community =>
    obtain ⟨-, hc, x, hx, hid, hcomm, -⟩ := hg
    have hw : markChunk state id community T = .ok (T.markChunk state id) := by
      rw [markChunk, requireCommunity_bind, if_neg hc,
        Tables.ownedChunk_eq_some.mpr ⟨hx, hid, hcomm⟩]
      rfl
    exact serves_write (v := ()) (congrArg (writing T) hw) (fun h => h) trivial (heffect nofun)
  | hardDeleteSourceMessage id community => exact serves_hardDelete h hr id community
  | listFailedEventChunks community limit =>
    refine ⟨hr, ?_⟩
    rw [handle, listFailedEventChunks, requireCommunity_bind]
    refine .of_check (fun h => Or.inl h) fun hc => .of_check (fun h => Or.inr h) fun hlim => ?_
    exact .of_ok (by simp [RepoCall.Refused, hc, hlim]) rfl rfl fun _ => rfl
  | saveIndexingDeadLetter record =>
    have hw : saveIndexingDeadLetter dialect record T = .ok (T.putDeadLetter record) :=
      insert_ok (not_taken hg.1) (heffect nofun)
    exact serves_write (v := ()) (congrArg (writing T) hw) id trivial (heffect nofun)
  | denseCandidates queryEmbedding modelName scope =>
    exact ⟨hr, serves_denseCandidates queryEmbedding modelName scope⟩
  | sparseCandidates queryText scope => exact ⟨hr, serves_sparseCandidates queryText scope⟩
  | saveQuery query =>
    have hw : saveQuery dialect query T = .ok (T.putQuery query) :=
      insert_ok (not_taken hg) (heffect nofun)
    exact serves_write (v := ()) (congrArg (writing T) hw) id trivial (heffect nofun)
  | saveRetrievalHits hits =>
    have hw : saveRetrievalHits dialect hits T = .ok (T.putHits hits) :=
      insertMany_hits h hr.deadLettersNamed hg.1 hg.2.1 fun x hx =>
        ⟨fun y hy => ⟨((hg.2.2 x hx).1 y hy).1, fun he =>
          ((hg.2.2 x hx).1 y hy).2 (Prod.mk.inj he).1⟩, (hg.2.2 x hx).2⟩
    exact serves_write (v := ()) (congrArg (writing T) hw) id trivial (heffect nofun)
  | saveAnswerTrace trace =>
    have hw : saveAnswerTrace dialect trace T = .ok (T.putTrace trace) := by
      refine insert_ok ?_ (heffect nofun)
      rintro (hk | ⟨x, hx, he⟩)
      · exact not_taken (fun x hx => (hg.1 x hx).2) hk
      · exact (hg.1 x hx).1 he
    exact serves_write (v := ()) (congrArg (writing T) hw) id trivial (heffect nofun)
  | saveChatRouteDecision decision =>
    have hw : saveChatRouteDecision dialect decision T = .ok (T.putDecision decision) :=
      insert_ok (not_taken hg.1) (heffect nofun)
    exact serves_write (v := ()) (congrArg (writing T) hw) id trivial (heffect nofun)
  | saveChatQueryRewrite rewrite =>
    have hw : saveChatQueryRewrite dialect rewrite T = .ok (T.putRewrite rewrite) := by
      refine insert_ok ?_ (heffect nofun)
      rintro (hk | ⟨x, hx, he⟩)
      · exact not_taken (fun x hx => (hg.1 x hx).2) hk
      · exact (hg.1 x hx).1 he
    exact serves_write (v := ()) (congrArg (writing T) hw) id trivial (heffect nofun)
  | saveChatKnowledgeSearch search =>
    have hw : saveChatKnowledgeSearch dialect search T = .ok (T.putSearch search) := by
      refine insert_ok ?_ (heffect nofun)
      rintro (hk | ⟨x, hx, he⟩)
      · exact not_taken (fun x hx => (hg.1 x hx).2) hk
      · exact (hg.1 x hx).1 he
    exact serves_write (v := ()) (congrArg (writing T) hw) id trivial (heffect nofun)

end SqlDomainStore

end DiaryMemory
