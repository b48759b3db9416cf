import DiaryMemory.MockConformance

/-!
# The idempotency index

`MockDomainStore` keeps its source rows and, beside them, an index from the key of a delivered
message state to the id of its row. Three methods write to both. Whatever is called, and whether
it raises or not, the index is the bijection between the keys of the stored rows and their ids
(`MockDomainStore.KeyBijection`), as long as a row is stored under an id that no other row has.
-/

namespace DiaryMemory

/-- A call of one of the three methods that write source rows. -/
inductive SourceCall where
  | saveSourceMessage (source : SourceMessage)
  | getOrCreateSourceMessage (source : SourceMessage)
  | hardDeleteSourceMessage (sourceMessageId communityId : String)
  deriving DecidableEq

namespace MockDomainStore

variable (store : MockDomainStore)

/-- Make the call : whether it returned, and the store it leaves. -/
def call : SourceCall → Except Exn Unit × MockDomainStore
  | .saveSourceMessage source => store.saveSourceMessage source
  | .getOrCreateSourceMessage source =>
    let r := store.getOrCreateSourceMessage source
    (r.1.map fun _ => (), r.2)
  | .hardDeleteSourceMessage id community =>
    match store.hardDeleteSourceMessage id community with
    | .ok (_, store') => (.ok (), store')
    | .error e => (.error e, store)

/-- Make the calls in turn; one that raises is passed over. -/
def callAll (store : MockDomainStore) (calls : List SourceCall) : MockDomainStore :=
  calls.foldl (fun store c => (store.call c).2) store

/-- The id of the row is that of no stored row. -/
def FreshId (source : SourceMessage) : Prop :=
  ∀ x ∈ store.sourceMessages, x.sourceMessageId ≠ source.sourceMessageId

/-- A row the call may store comes with a fresh id. -/
def FreshCall : SourceCall → Prop
  | .saveSourceMessage source => store.FreshId source
  | .getOrCreateSourceMessage source => store.FreshId source
  | .hardDeleteSourceMessage _ _ => True

/-- Every call of the sequence comes with a fresh id. -/
def FreshCalls : MockDomainStore → List SourceCall → Prop
  | _, [] => True
  | store, c :: calls => store.FreshCall c ∧ FreshCalls (store.call c).2 calls

instance (source : SourceMessage) : Decidable (store.FreshId source) :=
  inferInstanceAs (Decidable (∀ x ∈ store.sourceMessages.rows, _))

instance : (c : SourceCall) → Decidable (store.FreshCall c)
  | .saveSourceMessage source => inferInstanceAs (Decidable (store.FreshId source))
  | .getOrCreateSourceMessage source => inferInstanceAs (Decidable (store.FreshId source))
  | .hardDeleteSourceMessage _ _ => inferInstanceAs (Decidable True)

instance decidableFreshCalls : (store : MockDomainStore) → (calls : List SourceCall) →
    Decidable (store.FreshCalls calls)
  | _, [] => inferInstanceAs (Decidable True)
  | store, c :: calls =>
    have := decidableFreshCalls (store.call c).2 calls
    inferInstanceAs (Decidable (store.FreshCall c ∧ FreshCalls (store.call c).2 calls))

/-- The id the index holds for a key. -/
def indexedId (key : MessageKey) : Option String := (store.idempotency.find? key).map Prod.snd

/-- The index is the bijection between the keys of the stored rows and their ids. -/
structure KeyBijection : Prop where
  /-- The pairs of the index are the pairs of the rows : a key leads to the id of the row that
  has it, and to none if no row has it. -/
  pairs : ∀ key id, store.indexedId key = some id ↔
    ∃ source ∈ store.sourceMessages, source.messageKey = key ∧ source.sourceMessageId = id
  /-- Two keys do not share an id. -/
  ids : ∀ key key' id, store.indexedId key = some id → store.indexedId key' = some id → key = key'
  /-- Two rows do not share a key. -/
  keys : ∀ source ∈ store.sourceMessages, ∀ source' ∈ store.sourceMessages,
    source.messageKey = source'.messageKey → source = source'

variable {store} {source : SourceMessage}

theorem indexedId_eq_some {key : MessageKey} {id : String} :
    store.indexedId key = some id ↔ (key, id) ∈ store.idempotency := by
  rw [indexedId, Option.map_eq_some_iff]
  constructor
  · rintro ⟨⟨key', id'⟩, hfind, rfl⟩
    obtain ⟨hmem, rfl⟩ := Table.find?_eq_some_iff.mp hfind
    exact hmem
  · intro hmem
    exact ⟨_, Table.find?_key hmem, rfl⟩

theorem indexedId_eq_none {key : MessageKey} :
    store.indexedId key = none ↔ store.idempotency.find? key = none :=
  Option.map_eq_none_iff

theorem Indexed.keyBijection (h : store.Indexed) : store.KeyBijection := by
  have hpairs : ∀ key id, store.indexedId key = some id ↔
      ∃ source ∈ store.sourceMessages, source.messageKey = key ∧ source.sourceMessageId = id := by
    intro key id
    rw [indexedId_eq_some]
    constructor
    · intro hmem
      obtain ⟨source, hsource, he⟩ := h.source _ hmem
      obtain ⟨rfl, rfl⟩ := Prod.mk.inj he
      exact ⟨source, hsource, rfl, rfl⟩
    · rintro ⟨source, hsource, rfl, rfl⟩
      exact h.entry source hsource
  refine ⟨hpairs, fun key key' id hkey hkey' => ?_, fun source hs source' hs' he => ?_⟩
  · obtain ⟨source, hs, rfl, rfl⟩ := (hpairs _ _).mp hkey
    obtain ⟨source', hs', rfl, he⟩ := (hpairs _ _).mp hkey'
    rw [Table.eq_of_key hs' hs he]
  · have hid : store.indexedId source.messageKey = some source.sourceMessageId :=
      (hpairs _ _).mpr ⟨source, hs, rfl, rfl⟩
    have hid' : store.indexedId source.messageKey = some source'.sourceMessageId :=
      (hpairs _ _).mpr ⟨source', hs', he.symm, rfl⟩
    exact Table.eq_of_key hs hs' (Option.some.inj (hid.symm.trans hid'))

theorem KeyBijection.indexed (h : store.KeyBijection) : store.Indexed where
  entry source hs := indexedId_eq_some.mp ((h.pairs _ _).mpr ⟨source, hs, rfl, rfl⟩)
  source := by
    rintro ⟨key, id⟩ hmem
    obtain ⟨source, hs, rfl, rfl⟩ := (h.pairs _ _).mp (indexedId_eq_some.mpr hmem)
    exact ⟨source, hs, rfl⟩

/-! ## One call -/

/-- The row is stored, with its entry. -/
theorem saveSourceMessage_of_free (h : store.idempotency.find? source.messageKey = none) :
    store.saveSourceMessage source = (.ok (), { store with
      sourceMessages := store.sourceMessages.put source
      idempotency := store.idempotency.put (source.messageKey, source.sourceMessageId) }) := by
  rw [saveSourceMessage, h]
  rfl

theorem saveSourceMessage_of_taken {entry : MessageKey × String}
    (h : store.idempotency.find? source.messageKey = some entry) :
    ∃ e, store.saveSourceMessage source = (.error e, store) := by
  rw [saveSourceMessage, h]
  exact ⟨_, rfl⟩

theorem indexed_save (h : store.Indexed) (hfresh : store.FreshId source) :
    (store.saveSourceMessage source).2.Indexed := by
  cases hkey : store.idempotency.find? source.messageKey with
  | none =>
    rw [saveSourceMessage_of_free hkey]
    refine indexed_putSource h hfresh ?_
    simpa [find?_idempotency h] using hkey
  | some entry =>
    obtain ⟨e, he⟩ := saveSourceMessage_of_taken hkey
    rw [he]
    exact h

theorem indexed_getOrCreate (h : store.Indexed) (hfresh : store.FreshId source) :
    (store.getOrCreateSourceMessage source).2.Indexed := by
  rw [getOrCreateSourceMessage_eq h]
  cases hkey : store.sourceForKey source.messageKey with
  | none => exact indexed_putSource h hfresh hkey
  | some existing => exact h

/-- What a hard delete that returned has done. -/
theorem hardDelete_ok {id community : String} {tally : HardDeleteOutcome} {store' : MockDomainStore}
    (h : store.hardDeleteSourceMessage id community = .ok (tally, store')) :
    ∃ source ∈ store.sourceMessages, source.sourceMessageId = id ∧ store' = { store with
      toTables := store.toTables.removeSource id
      idempotency := store.idempotency.discard fun e => e.1 = source.messageKey } := by
  rw [hardDeleteSourceMessage, requireCommunity_bind] at h
  split at h
  · cases h
  cases howned : store.ownedSource id community with
  | none =>
    rw [howned] at h
    cases h
  | some source =>
    rw [howned] at h
    obtain ⟨hmem, hid, -⟩ := Tables.ownedSource_eq_some.mp howned
    exact ⟨source, hmem, hid, (Prod.mk.inj (Except.ok.inj h)).2.symm⟩

/-- The key of a row leaves the index with it. -/
theorem find?_discard_key {key : MessageKey} :
    (store.idempotency.discard fun e => e.1 = key).find? key = none := by
  refine Table.find?_eq_none_iff.mpr fun e he => ?_
  exact of_decide_eq_false (Table.mem_discard.mp he).2

theorem indexed_hardDelete {id community : String} {tally : HardDeleteOutcome}
    {store' : MockDomainStore} (h : store.Indexed)
    (hd : store.hardDeleteSourceMessage id community = .ok (tally, store')) : store'.Indexed := by
  obtain ⟨source, hmem, rfl, rfl⟩ := hardDelete_ok hd
  exact indexed_removeSource h hmem

/-- Every call keeps the index in step with the rows. -/
theorem indexed_call (h : store.Indexed) {c : SourceCall} (hfresh : store.FreshCall c) :
    (store.call c).2.Indexed := by
  cases c with
  | saveSourceMessage source => exact indexed_save h hfresh
  | getOrCreateSourceMessage source => exact indexed_getOrCreate h hfresh
  | hardDeleteSourceMessage id community =>
    rw [call]
    cases hd : store.hardDeleteSourceMessage id community with
    | ok r => exact indexed_hardDelete h hd
    | error e => exact h

/-! ## All calls -/

theorem indexed_callAll {calls : List SourceCall} (h : store.Indexed)
    (hfresh : store.FreshCalls calls) : (store.callAll calls).Indexed := by
  induction calls generalizing store with
  | nil => exact h
  | cons c calls ih => exact ih (indexed_call h hfresh.1) hfresh.2

/-- A stored row under the id of another one breaks the index : both keys lead to the id. -/
theorem not_keyBijection_of_stale (h : store.KeyBijection)
    (hfree : store.idempotency.find? source.messageKey = none) (hstale : ¬ store.FreshId source) :
    ¬ (store.saveSourceMessage source).2.KeyBijection := by
  intro h'
  simp only [FreshId, not_forall, not_not] at hstale
  obtain ⟨x, hx, hid⟩ := hstale
  have hxid := (h.pairs x.messageKey x.sourceMessageId).mpr ⟨x, hx, rfl, rfl⟩
  have hne : source.messageKey ≠ x.messageKey := by
    intro he
    rw [← he, indexedId_eq_none.mpr hfree] at hxid
    cases hxid
  rw [saveSourceMessage_of_free hfree] at h'
  refine hne (h'.ids _ _ source.sourceMessageId (indexedId_eq_some.mpr Table.mem_put_self)
    (indexedId_eq_some.mpr (Table.mem_put_of_ne ?_ hne.symm)))
  rw [← hid]
  exact indexedId_eq_some.mp hxid

end MockDomainStore

open MockDomainStore in
/-- Whatever is called in turn, from the empty store or any other one in step, the index is the
bijection between the keys of the stored rows and their ids. After a hard delete the key of the
row is free : no entry has it, and the next row with it is stored. -/
theorem source_index_run :
    ({} : MockDomainStore).KeyBijection ∧
    ∀ (store : MockDomainStore) (calls : List SourceCall), store.KeyBijection →
      store.FreshCalls calls →
      (store.callAll calls).KeyBijection ∧
      ∀ id community tally store',
        (store.callAll calls).hardDeleteSourceMessage id community = .ok (tally, store') →
        ∃ source ∈ (store.callAll calls).sourceMessages, source.sourceMessageId = id ∧
          store'.indexedId source.messageKey = none ∧
          ∀ next : SourceMessage, next.messageKey = source.messageKey →
            (store'.saveSourceMessage next).1 = .ok () ∧
            (store'.getOrCreateSourceMessage next).1 = .ok (next, false) := by
  refine ⟨indexed_empty.keyBijection, fun store calls h hfresh => ?_⟩
  have hindexed := indexed_callAll h.indexed hfresh
  refine ⟨hindexed.keyBijection, fun id community tally store' hd => ?_⟩
  obtain ⟨source, hmem, hid, rfl⟩ := hardDelete_ok hd
  refine ⟨source, hmem, hid, ?_, fun next hkey => ?_⟩
  · exact indexedId_eq_none.mpr find?_discard_key
  · rw [← hkey]
    have hfree : ((store.callAll calls).idempotency.discard fun e => e.1 = next.messageKey).find?
        next.messageKey = none := find?_discard_key
    refine ⟨by rw [saveSourceMessage_of_free hfree], ?_⟩
    rw [getOrCreateSourceMessage, hfree]

/-- A message state of one chat. -/
def SourceMessage.inChat (id message : String) : SourceMessage where
  sourceMessageId := id
  communityId := "community"
  authorUserId := "user"
  externalChatId := "chat"
  externalUserId := "user"
  externalMessageId := message
  editSeq := 0
  rawText := "2026-05-09\nwalk"
  detectedRoute := .note
  createdAt := .mayNinth

/-- Two states are stored, a second row at the first key is refused, and the first row is
deleted : the second key is left in the index. -/
theorem source_index_run_delete :
    let calls : List SourceCall :=
      [.saveSourceMessage (.inChat "first" "1"), .saveSourceMessage (.inChat "other" "1"),
        .getOrCreateSourceMessage (.inChat "second" "2"),
        .hardDeleteSourceMessage "first" "community"]
    let store := ({} : MockDomainStore).callAll calls
    store.KeyBijection ∧ store.indexedId ("chat", "1", 0) = none ∧
      store.indexedId ("chat", "2", 0) = some "second" := by
  intro calls store
  obtain ⟨hempty, hrun⟩ := source_index_run
  exact ⟨(hrun {} calls hempty (by decide)).1, by decide, by decide⟩

end DiaryMemory
