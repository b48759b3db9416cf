import DiaryMemory.Serving
import DiaryMemory.Timestamps
import DiaryMemory.World

/-!
# What SQLite keeps

`SqliteDomainStore` answers the lookups by SQL on what its columns hold : instants are
texts, and a vector is packed into floats of 32 bits (`encode`, a parameter). The lookups
join and compare texts, and select what `Tables` selects by instants
(`getActiveNoteForExternalMessage_eq` and the lemmas after it). An integer that does not fit 64
bits can not be bound, and the packing of a vector may fail : such a call raises
(`RepoCall.Binds`).

No call that serves an ingest, a removal or a retry reads a vector : on packed rows each
replies as on the rows themselves, if it can be bound, and leaves what it would leave, packed
(`handle_packed`).
-/

namespace DiaryMemory

/-! ## Orders on text -/

/-- The order of creation, as texts compare. -/
abbrev TextRecency := String ×ₗ String

def Note.textRecency (n : Note) : TextRecency := toLex (n.createdAt.isoformat, n.noteId)
def EventChunk.textRecency (c : EventChunk) : TextRecency :=
  toLex (c.createdAt.isoformat, c.chunkId)
def IndexingDeadLetter.textRecency (d : IndexingDeadLetter) : TextRecency :=
  toLex (d.createdAt.isoformat, d.deadLetterId)

section Orders

variable {α β K K' : Type} [LinearOrder K] [LinearOrder K']

/-- Rows and what they are read as, sorted by keys that compare alike. -/
theorem map_newestFirst (f : α → β) (key : α → K) (key' : β → K')
    (h : ∀ a b, key a ≤ key b ↔ key' (f a) ≤ key' (f b)) (rows : List α) :
    (newestFirst key rows).map f = newestFirst key' (rows.map f) :=
  List.map_insertionSort _ _ _ _ fun a _ b _ => h b a

theorem newestFirst_congr (key : α → K) (key' : α → K') (h : ∀ a b, key a ≤ key b ↔ key' a ≤ key' b)
    (rows : List α) : newestFirst key rows = newestFirst key' rows := by
  simpa using map_newestFirst id key key' h rows

theorem oldestFirst_congr (key : α → K) (key' : α → K') (h : ∀ a b, key a ≤ key b ↔ key' a ≤ key' b)
    (rows : List α) : oldestFirst key rows = oldestFirst key' rows := by
  have hsort := List.map_insertionSort (fun a b => key a ≤ key b) (fun a b => key' a ≤ key' b) id
    rows fun a _ b _ => h a b
  simp only [List.map_id] at hsort
  exact hsort

end Orders

/-! ## Parameters -/

/-- The integers SQLite binds : 64 bits, with a sign. -/
def BindsInt (n : Int) : Prop := -2 ^ 63 ≤ n ∧ n < 2 ^ 63

instance (n : Int) : Decidable (BindsInt n) := inferInstanceAs (Decidable (_ ∧ _))

/-- Bind an integer. -/
def bindInt (n : Int) : Except Exn Unit :=
  if BindsInt n then pure () else throw (.other "OverflowError")

theorem bindInt_bind {α : Type} {n : Int} (h : BindsInt n) (f : Unit → Except Exn α) :
    (bindInt n >>= f) = f () := by
  rw [bindInt, if_pos h]
  rfl

/-- Bind the limit of a list, which is not negative. -/
def bindLimit : Option Int → Except Exn Unit
  | none => pure ()
  | some n => bindInt n

theorem bindLimit_bind {α : Type} {limit : Option Int} (h : ∀ n ∈ limit, n < 2 ^ 63)
    (hneg : limit.any (· < 0) = false) (f : Unit → Except Exn α) :
    (bindLimit limit >>= f) = f () := by
  cases limit with
  | none => rfl
  | some n =>
    have hn : 0 ≤ n := by simpa using hneg
    exact bindInt_bind ⟨by omega, h n rfl⟩ f

/-! ## Lookups -/

namespace SqliteDomainStore

/-- `notes n JOIN source_messages sm ON sm.source_message_id = n.source_message_id`. -/
def notesJoinSources (T : Tables) : List (Note × SourceMessage) :=
  T.notes.rows.flatMap fun n =>
    (T.sourceMessages.rows.filter fun sm => sm.sourceMessageId = n.sourceMessageId).map fun sm =>
      (n, sm)

def getActiveNoteForExternalMessage (chat msg community : String) (T : Tables) :
    Except Exn (Option Note) := do
  requireCommunity community
  let rows := (notesJoinSources T).filter fun row =>
    row.2.externalChatId = chat ∧ row.2.externalMessageId = msg ∧ row.1.communityId = community ∧
      row.1.lifecycleState = .active
  pure ((newestFirst (fun row => row.1.textRecency) rows).head?.map Prod.fst)

def getActiveChunkForNote (noteId community : String) (T : Tables) :
    Except Exn (Option EventChunk) := do
  requireCommunity community
  let rows := T.eventChunks.rows.filter fun c =>
    c.noteId = noteId ∧ c.communityId = community ∧ c.lifecycleState = .active
  pure (newestFirst EventChunk.textRecency rows).head?

def listFailedEventChunks (community : String) (limit : Option Int) (T : Tables) :
    Except Exn (List EventChunk) := do
  requireCommunity community
  if limit.any (· < 0) then throw (.valueError "limit must be non-negative")
  bindLimit limit
  let rows := T.eventChunks.rows.filter fun c =>
    c.communityId = community ∧ c.embeddingStatus = .failed
  pure (takeLimit limit (oldestFirst EventChunk.textRecency rows))

end SqliteDomainStore

/-- The rows at a key : one or none. -/
theorem Table.filter_key {K V : Type} [DecidableEq K] {key : V → K} (t : Table key) (k : K) :
    t.rows.filter (fun v => key v = k) = (t.find? k).toList := by
  have hrows : ∀ rows : List V, (rows.map key).Nodup →
      rows.filter (fun v => key v = k) = (rows.find? fun v => key v = k).toList := by
    intro rows hnodup
    induction rows with
    | nil => rfl
    | cons v rows ih =>
      obtain ⟨hv, hnodup⟩ := List.nodup_cons.mp hnodup
      by_cases hk : key v = k
      · have hnone : rows.filter (fun v => key v = k) = [] := by
          refine List.filter_eq_nil_iff.mpr fun x hx hxk => hv ?_
          rw [hk, ← of_decide_eq_true hxk]
          exact List.mem_map_of_mem hx
        simp [hk, hnone]
      · simpa [hk] using ih hnodup
  exact hrows t.rows t.nodup

theorem flatMap_ite_singleton {α : Type} (p : α → Bool) (l : List α) :
    (l.flatMap fun a => if p a then [a] else []) = l.filter p := by
  induction l with
  | nil => rfl
  | cons a l ih =>
    rw [List.flatMap_cons, ih, List.filter_cons]
    split <;> rfl

namespace SqliteDomainStore

variable {T : Tables} {chat msg community noteId : String} {limit : Option Int}

/-- The join has one row for each note, and the test of its row is that of the note. -/
theorem notesJoinSources_eq (T : Tables) (chat msg community : String) :
    ((notesJoinSources T).filter fun row =>
      row.2.externalChatId = chat ∧ row.2.externalMessageId = msg ∧
        row.1.communityId = community ∧ row.1.lifecycleState = .active).map Prod.fst =
      T.activeNotesFor chat msg community := by
  rw [notesJoinSources, List.filter_flatMap, List.map_flatMap, Tables.activeNotesFor,
    ← flatMap_ite_singleton]
  congr 1
  ext1 n
  rw [Table.filter_key, Tables.sourceIsFor]
  cases T.sourceMessages.find? n.sourceMessageId with
  | none => simp
  | some sm =>
    by_cases hkept : sm.externalChatId = chat ∧ sm.externalMessageId = msg ∧
        n.communityId = community ∧ n.lifecycleState = .active
    · simp [hkept]
    · have hnot : ¬ (n.communityId = community ∧ n.lifecycleState = .active ∧
          sm.externalChatId = chat ∧ sm.externalMessageId = msg) := by tauto
      simpa [hkept] using hnot

theorem getActiveNoteForExternalMessage_eq (chat msg community : String) (T : Tables) :
    getActiveNoteForExternalMessage chat msg community T =
      SqlDomainStore.getActiveNoteForExternalMessage chat msg community T := by
  have hsort := map_newestFirst Prod.fst (fun row : Note × SourceMessage => row.1.textRecency)
    Note.recency (fun _ _ => DateTime.isoformat_le_iff) ((notesJoinSources T).filter fun row =>
      row.2.externalChatId = chat ∧ row.2.externalMessageId = msg ∧
        row.1.communityId = community ∧ row.1.lifecycleState = .active)
  rw [notesJoinSources_eq] at hsort
  rw [getActiveNoteForExternalMessage, SqlDomainStore.getActiveNoteForExternalMessage,
    Tables.getActiveNoteForExternalMessage, ← hsort, List.head?_map]

theorem getActiveChunkForNote_eq (noteId community : String) (T : Tables) :
    getActiveChunkForNote noteId community T =
      SqlDomainStore.getActiveChunkForNote noteId community T := by
  have hsort := newestFirst_congr EventChunk.textRecency EventChunk.recency
    fun _ _ => DateTime.isoformat_le_iff
  simp only [getActiveChunkForNote, SqlDomainStore.getActiveChunkForNote,
    Tables.getActiveChunkForNote, Tables.activeChunksFor, hsort]

theorem listFailedEventChunks_eq (community : String) (hlimit : ∀ n ∈ limit, n < 2 ^ 63)
    (T : Tables) : listFailedEventChunks community limit T =
      SqlDomainStore.listFailedEventChunks community limit T := by
  have hsort := oldestFirst_congr EventChunk.textRecency EventChunk.recency
    fun _ _ => DateTime.isoformat_le_iff
  rw [listFailedEventChunks, SqlDomainStore.listFailedEventChunks, requireCommunity_bind,
    requireCommunity_bind]
  split
  · rfl
  by_cases hneg : limit.any (· < 0) = true
  · rw [if_pos hneg, if_pos hneg]
    rfl
  · rw [if_neg hneg, if_neg hneg, bindLimit_bind hlimit (Bool.eq_false_iff.mpr hneg)]
    simp only [Tables.listFailedEventChunks, Tables.failedChunks, hsort]

end SqliteDomainStore

/-! ## Packed vectors -/

/-- The record as its columns hold it. -/
@[simps]
def EmbeddingRecord.packed (pack : Vec → Vec) (r : EmbeddingRecord) : EmbeddingRecord :=
  { r with embedding := pack r.embedding }

theorem EmbeddingRecord.chunkModel_packed (pack : Vec → Vec) (r : EmbeddingRecord) :
    (r.packed pack).chunkModel = r.chunkModel := rfl

namespace Table

variable {K V : Type} [DecidableEq K] {key : V → K}

/-- The rows rewritten under their keys. -/
def mapRows (f : V → V) (hf : ∀ v, key (f v) = key v) (t : Table key) : Table key :=
  ⟨t.rows.map f, by
    have hkeys : key ∘ f = key := funext hf
    rw [List.map_map, hkeys]
    exact t.nodup⟩

variable {f : V → V} (hf : ∀ v, key (f v) = key v) {t : Table key}

theorem find?_mapRows (k : K) : (t.mapRows f hf).find? k = (t.find? k).map f := by
  have hkeys : ((fun v => decide (key v = k)) ∘ f) = fun v => decide (key v = k) := by
    ext v
    simp [hf]
  rw [find?, mapRows, List.find?_map, hkeys, find?]

theorem put_mapRows (v : V) : (t.mapRows f hf).put (f v) = (t.put v).mapRows f hf := by
  refine ext_rows ?_
  have hrows : ∀ rows : List V, putRow key (f v) (rows.map f) = (putRow key v rows).map f := by
    intro rows
    induction rows with
    | nil => rfl
    | cons x rows ih =>
      rw [List.map_cons, putRow, putRow, hf, hf, ih]
      split <;> rfl
  exact hrows t.rows

end Table

/-- The rows as SQLite keeps them. -/
def Tables.packed (pack : Vec → Vec) (T : Tables) : Tables :=
  { T with
    embeddingRecords := T.embeddingRecords.mapRows (EmbeddingRecord.packed pack)
      (EmbeddingRecord.chunkModel_packed pack) }

theorem Tables.mem_packed {pack : Vec → Vec} {T : Tables} {r : EmbeddingRecord} :
    r ∈ (T.packed pack).embeddingRecords ↔ ∃ x ∈ T.embeddingRecords, x.packed pack = r :=
  List.mem_map

theorem Tables.find?_packed (pack : Vec → Vec) (T : Tables) (k : String × String) :
    (T.packed pack).embeddingRecords.find? k =
      (T.embeddingRecords.find? k).map (EmbeddingRecord.packed pack) :=
  Table.find?_mapRows (EmbeddingRecord.chunkModel_packed pack) k

theorem Tables.references_packed {pack : Vec → Vec} {T : Tables} :
    (T.packed pack).References ↔ T.References := by
  constructor
  · intro h
    exact { h with
      record_chunk := fun r hr => h.record_chunk (r.packed pack) (mem_packed.mpr ⟨r, hr, rfl⟩)
      record_source := fun r hr => h.record_source (r.packed pack) (mem_packed.mpr ⟨r, hr, rfl⟩) }
  · intro h
    refine { h with record_chunk := fun r hr => ?_, record_source := fun r hr => ?_ }
    · obtain ⟨x, hx, rfl⟩ := mem_packed.mp hr
      exact h.record_chunk x hx
    · obtain ⟨x, hx, rfl⟩ := mem_packed.mp hr
      exact h.record_source x hx

namespace SqliteDomainStore

section Writes

variable (encode : Vec → Except Exn Vec)

/-- The record with its vector packed. -/
def encoded (r : EmbeddingRecord) : Except Exn EmbeddingRecord :=
  (encode r.embedding).map fun v => { r with embedding := v }

/-- All parameters of the insert are bound before it looks for a conflict. -/
def getOrCreateSourceMessage (source : SourceMessage) (T : Tables) :
    Except Exn ((SourceMessage × Bool) × Tables) := do
  bindInt source.editSeq
  SqlDomainStore.getOrCreateSourceMessage .sqlite source T

def saveEventChunks (chunks : List EventChunk) (T : Tables) : Except Exn Tables :=
  SqlDomainStore.insertMany (fun c T => do
    bindInt c.eventIndex
    SqlDomainStore.insert .sqlite ((T.eventChunks.find? c.chunkId).isSome) (fun T => T.putChunk c) T)
    chunks T

/-- The vectors of all records are packed before the first is inserted. -/
def saveEmbeddingRecords (records : List EmbeddingRecord) (T : Tables) : Except Exn Tables := do
  let rows ← records.mapM (encoded encode)
  SqlDomainStore.insertMany (fun r T => do
    bindInt r.dimension
    SqlDomainStore.insert .sqlite ((T.embeddingRecords.find? r.chunkModel).isSome ∨
      ∃ r' ∈ T.embeddingRecords.rows, r'.embeddingRecordId = r.embeddingRecordId)
      (fun T => { T with embeddingRecords := T.embeddingRecords.put r }) T) rows T

/-- Serve one call; those that a note does not need are as in `SqlDomainStore`. -/
def handle (engine : SearchEngine) :
    (c : RepoCall) → SqlDomainStore → Except Exn (RepoReply c) × SqlDomainStore
  | .getOrCreateSourceMessage source, T =>
    SqlDomainStore.returning T (getOrCreateSourceMessage source T)
  | .saveEventChunks chunks, T => writing T (saveEventChunks chunks T)
  | .getActiveNoteForExternalMessage chat msg community, T =>
    reading T (getActiveNoteForExternalMessage chat msg community T)
  | .getActiveChunkForNote noteId community, T =>
    reading T (getActiveChunkForNote noteId community T)
  | .listFailedEventChunks community limit, T =>
    reading T (listFailedEventChunks community limit T)
  | .saveEmbeddingRecords records, T => writing T (saveEmbeddingRecords encode records T)
  | c, T => SqlDomainStore.handle .sqlite engine c T

/-- The store. -/
def backend (engine : SearchEngine) : Backend where
  State := SqlDomainStore
  init := ({} : Tables)
  tables := id
  handle := handle encode engine

end Writes

end SqliteDomainStore

/-! ## Calls on packed rows -/

/-- The calls of an ingest, a removal, a discovery or a retry. -/
def RepoCall.OnNotes : RepoCall → Prop
  | .getOrCreateSourceMessage _ | .saveNote _ | .saveEventChunks _ => True
  | .getNoteBySourceMessageId _ | .getActiveNoteForExternalMessage .. => True
  | .countEventChunksForSource _ | .getActiveChunkForNote .. => True
  | .saveEmbeddingRecords _ | .setChunkEmbeddingStatus .. => True
  | .markNote .. | .markChunk .. | .listFailedEventChunks .. | .saveIndexingDeadLetter _ => True
  | _ => False

/-- The parameters of the call can be bound. -/
def RepoCall.Binds (encode : Vec → Except Exn Vec) : RepoCall → Prop
  | .getOrCreateSourceMessage s => BindsInt s.editSeq
  | .saveEventChunks cs => ∀ c ∈ cs, BindsInt c.eventIndex
  | .saveEmbeddingRecords rs => ∀ r ∈ rs, BindsInt r.dimension ∧ ∃ v, encode r.embedding = .ok v
  | .listFailedEventChunks _ limit => ∀ n ∈ limit, n < 2 ^ 63
  | _ => True

section Packed

open SqlDomainStore

variable {pack : Vec → Vec} {T : Tables}

theorem statement_packed {change change' : Tables → Tables}
    (h : change' (T.packed pack) = (change T).packed pack) :
    statement .sqlite change' (T.packed pack) =
      (statement .sqlite change T).map (Tables.packed pack) := by
  rw [statement, statement, h]
  by_cases href : (change T).References
  · rw [if_pos href, if_pos (Tables.references_packed.mpr href)]
    rfl
  · rw [if_neg href, if_neg fun h => href (Tables.references_packed.mp h)]
    rfl

theorem insert_packed {conflict conflict' : Prop} [Decidable conflict] [Decidable conflict']
    (hconflict : conflict' ↔ conflict) {change change' : Tables → Tables}
    (h : change' (T.packed pack) = (change T).packed pack) :
    SqlDomainStore.insert .sqlite conflict' change' (T.packed pack) =
      (SqlDomainStore.insert .sqlite conflict change T).map (Tables.packed pack) := by
  rw [SqlDomainStore.insert, SqlDomainStore.insert]
  by_cases hc : conflict
  · rw [if_pos hc, if_pos (hconflict.mpr hc)]
    rfl
  · rw [if_neg hc, if_neg fun h => hc (hconflict.mp h)]
    exact statement_packed h

theorem insertMany_packed {α : Type} (f : α → α) (one one' : α → Tables → Except Exn Tables) :
    ∀ (as : List α) (T : Tables),
      (∀ a ∈ as, ∀ T : Tables, one' (f a) (T.packed pack) = (one a T).map (Tables.packed pack)) →
      insertMany one' (as.map f) (T.packed pack) = (insertMany one as T).map (Tables.packed pack)
  | [], _, _ => rfl
  | a :: as, T, h => by
    obtain ⟨ha, has⟩ := List.forall_mem_cons.mp h
    rw [List.map_cons, insertMany, insertMany, ha]
    cases one a T with
    | error e => rfl
    | ok T' => exact insertMany_packed f one one' as T' has

theorem writing_packed {r r' : Except Exn Tables} (h : r' = r.map (Tables.packed pack)) :
    writing (T.packed pack) r' =
      ((writing T r).1, (writing T r).2.packed pack) := by
  subst h
  cases r <;> rfl

/-- The read of one row does not depend on the vectors. -/
theorem getOrCreateSourceMessage_packed {source : SourceMessage} (hb : BindsInt source.editSeq) :
    SqliteDomainStore.getOrCreateSourceMessage source (T.packed pack) =
      (getOrCreateSourceMessage .sqlite source T).map fun r => (r.1, r.2.packed pack) := by
  have hkey : (T.packed pack).sourceForKey source.messageKey =
    T.sourceForKey source.messageKey := rfl
  have hid : (T.packed pack).sourceMessages.find? source.sourceMessageId =
    T.sourceMessages.find? source.sourceMessageId := rfl
  rw [SqliteDomainStore.getOrCreateSourceMessage, bindInt_bind hb]
  unfold getOrCreateSourceMessage
  rw [hkey, hid]
  cases T.sourceForKey source.messageKey with
  | some existing => rfl
  | none => cases T.sourceMessages.find? source.sourceMessageId <;> rfl

theorem saveEventChunks_packed {chunks : List EventChunk} (hb : ∀ c ∈ chunks, BindsInt c.eventIndex) :
    SqliteDomainStore.saveEventChunks chunks (T.packed pack) =
      (saveEventChunks .sqlite chunks T).map (Tables.packed pack) := by
  rw [SqliteDomainStore.saveEventChunks, saveEventChunks, ← insertMany_packed id _ _ chunks T ?_,
    List.map_id]
  intro c hc T
  rw [id, bindInt_bind (hb c hc)]
  exact insert_packed Iff.rfl rfl

/-- What `encode` makes of a vector, if it does. -/
def packing (encode : Vec → Except Exn Vec) (v : Vec) : Vec := (encode v).toOption.getD v

theorem mapM_encoded {encode : Vec → Except Exn Vec} {records : List EmbeddingRecord}
    (h : ∀ r ∈ records, ∃ v, encode r.embedding = .ok v) :
    records.mapM (SqliteDomainStore.encoded encode) =
      .ok (records.map (EmbeddingRecord.packed (packing encode))) := by
  induction records with
  | nil => rfl
  | cons r records ih =>
    obtain ⟨⟨v, hv⟩, hrecords⟩ := List.forall_mem_cons.mp h
    have hr : SqliteDomainStore.encoded encode r = .ok (r.packed (packing encode)) := by
      rw [SqliteDomainStore.encoded, EmbeddingRecord.packed, packing, hv]
      rfl
    rw [List.mapM_cons, hr, ih hrecords]
    rfl

theorem saveEmbeddingRecords_packed {encode : Vec → Except Exn Vec} {records : List EmbeddingRecord}
    (hb : ∀ r ∈ records, BindsInt r.dimension ∧ ∃ v, encode r.embedding = .ok v) :
    SqliteDomainStore.saveEmbeddingRecords encode records (T.packed (packing encode)) =
      (saveEmbeddingRecords .sqlite records T).map (Tables.packed (packing encode)) := by
  rw [SqliteDomainStore.saveEmbeddingRecords, mapM_encoded fun r hr => (hb r hr).2]
  change insertMany _ (records.map (EmbeddingRecord.packed (packing encode))) _ = _
  refine insertMany_packed (EmbeddingRecord.packed (packing encode)) _ _ records T fun r hr T => ?_
  rw [EmbeddingRecord.packed_dimension, bindInt_bind (hb r hr).1]
  refine insert_packed (or_congr ?_ ?_) ?_
  · change ((T.packed (packing encode)).embeddingRecords.find? r.chunkModel).isSome ↔ _
    rw [Tables.find?_packed, Option.isSome_map]
  · change (∃ x ∈ T.embeddingRecords.rows.map (EmbeddingRecord.packed (packing encode)),
      x.embeddingRecordId = r.embeddingRecordId) ↔ _
    simp
  · exact congrArg (fun t => { T with embeddingRecords := t })
      (Table.put_mapRows (EmbeddingRecord.chunkModel_packed (packing encode)) r)

theorem setChunkEmbeddingStatus_packed (id : String) (status : EmbeddingStatus) :
    setChunkEmbeddingStatus id status (T.packed pack) =
      (setChunkEmbeddingStatus id status T).map (Tables.packed pack) := by
  have hid : (T.packed pack).eventChunks.find? id = T.eventChunks.find? id := rfl
  unfold setChunkEmbeddingStatus
  rw [hid]
  cases T.eventChunks.find? id <;> rfl

theorem markNote_packed (state : LifecycleState) (id community : String) :
    markNote state id community (T.packed pack) =
      (markNote state id community T).map (Tables.packed pack) := by
  have hid : (T.packed pack).ownedNote id community = T.ownedNote id community := rfl
  unfold markNote
  rw [requireCommunity_bind, requireCommunity_bind, hid]
  split
  · rfl
  · cases T.ownedNote id community <;> rfl

theorem markChunk_packed (state : LifecycleState) (id community : String) :
    markChunk state id community (T.packed pack) =
      (markChunk state id community T).map (Tables.packed pack) := by
  have hid : (T.packed pack).ownedChunk id community = T.ownedChunk id community := rfl
  unfold markChunk
  rw [requireCommunity_bind, requireCommunity_bind, hid]
  split
  · rfl
  · cases T.ownedChunk id community <;> rfl

/-- On packed rows a call that can be bound replies as on the rows, and leaves what it would leave,
packed. -/
theorem handle_packed (encode : Vec → Except Exn Vec) (engine : SearchEngine) {c : RepoCall}
    (hc : c.OnNotes) (hb : c.Binds encode) (T : Tables) :
    SqliteDomainStore.handle encode engine c (T.packed (packing encode)) =
      ((SqlDomainStore.handle .sqlite engine c T).1,
        (SqlDomainStore.handle .sqlite engine c T).2.packed (packing encode)) := by
  cases c with
  | getOrCreateSourceMessage source =>
    change returning _ (SqliteDomainStore.getOrCreateSourceMessage source _) = _
    rw [getOrCreateSourceMessage_packed hb, SqlDomainStore.handle]
    cases getOrCreateSourceMessage .sqlite source T <;> rfl
  | saveNote note => exact writing_packed (insert_packed Iff.rfl rfl)
  | saveEventChunks chunks => exact writing_packed (saveEventChunks_packed hb)
  | saveEmbeddingRecords records => exact writing_packed (saveEmbeddingRecords_packed hb)
  | setChunkEmbeddingStatus id status =>
    exact writing_packed (setChunkEmbeddingStatus_packed id status)
  | markNote state id community => exact writing_packed (markNote_packed state id community)
  | markChunk state id community => exact writing_packed (markChunk_packed state id community)
  | saveIndexingDeadLetter record => exact writing_packed (insert_packed Iff.rfl rfl)
  | getNoteBySourceMessageId | countEventChunksForSource => rfl
  | getActiveNoteForExternalMessage chat msg community =>
    exact congrArg (reading (T.packed (packing encode)))
      (SqliteDomainStore.getActiveNoteForExternalMessage_eq chat msg community _)
  | getActiveChunkForNote noteId community =>
    exact congrArg (reading (T.packed (packing encode)))
      (SqliteDomainStore.getActiveChunkForNote_eq noteId community _)
  | listFailedEventChunks community limit =>
    exact congrArg (reading (T.packed (packing encode)))
      (SqliteDomainStore.listFailedEventChunks_eq community hb _)
  | _ => exact absurd hc id

end Packed

end DiaryMemory
