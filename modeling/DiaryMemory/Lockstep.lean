import DiaryMemory.Asking
import DiaryMemory.Operations
import DiaryMemory.Sqlite

/-!
# The in-memory store and SQLite in step

`Request` is an ingest, a removal, a discovery or a retry. With a store that does not fail by
itself, requests answered by the in-memory store and by SQLite have the same results, draw the
same identifiers and read the clock at the same calls, and leave the same rows up to the vectors
(`stores_in_step`), as long as SQLite can bind their integers and pack the vectors they embed
(`binding`).

The stores word one refusal differently : that of a second record for a chunk and a model, which
an outcome would pass on. It does not occur, since a chunk that is embedded has no record yet
(`Tables.Bare`).
-/

namespace DiaryMemory

/-! ## Failed chunks without records -/

/-- A failed chunk has no record. -/
def Tables.Bare (T : Tables) : Prop :=
  ∀ c ∈ T.eventChunks, c.embeddingStatus = .failed → ∀ r ∈ T.embeddingRecords, r.chunkId ≠ c.chunkId

/-- A call that stores no record and makes no chunk failed. -/
def RepoCall.OffIndex : RepoCall → Prop
  | .saveEventChunks cs => ∀ c ∈ cs, c.embeddingStatus ≠ .failed
  | .getOrCreateSourceMessage _ | .saveNote _ | .markNote .. | .markChunk .. => True
  | .saveIndexingDeadLetter _ | .getNoteBySourceMessageId _ | .listFailedEventChunks .. => True
  | .getActiveNoteForExternalMessage .. | .countEventChunksForSource _ => True
  | .getActiveChunkForNote .. => True
  | _ => False

namespace Tables.Bare

variable {T T' : Tables} {id : String}

/-- Chunks may be added that are not failed. -/
theorem of_chunks (h : T.Bare) (hrecords : T'.embeddingRecords = T.embeddingRecords)
    (hchunks : ∀ c ∈ T'.eventChunks, c.embeddingStatus = .failed →
      ∃ d ∈ T.eventChunks, d.chunkId = c.chunkId ∧ d.embeddingStatus = .failed) : T'.Bare := by
  intro c hc hfailed r hr
  rw [hrecords] at hr
  obtain ⟨d, hd, hid, hdfailed⟩ := hchunks c hc hfailed
  exact hid ▸ h d hd hdfailed r hr

theorem effect {c : RepoCall} (h : T.Bare) (hc : c.OffIndex) : (c.effect T).Bare := by
  cases c with
  | getOrCreateSourceMessage s =>
    cases hkey : T.sourceForKey s.messageKey with
    | some existing => exact (RepoCall.effect_found hkey).symm ▸ h
    | none => exact (RepoCall.effect_new hkey).symm ▸ h
  | saveEventChunks cs =>
    exact h.of_chunks rfl (Table.forall_putAll (fun c hcm hfailed => ⟨c, hcm, rfl, hfailed⟩)
      fun c hcm hfailed => absurd hfailed (hc c hcm))
  | markChunk state id community =>
    refine h.of_chunks rfl fun c hcm hfailed => ?_
    obtain ⟨d, hd, rfl⟩ := mem_markChunk.mp hcm
    by_cases hid : d.chunkId = id
    · rw [if_pos hid] at hfailed ⊢
      exact ⟨d, hd, rfl, hfailed⟩
    · rw [if_neg hid] at hfailed ⊢
      exact ⟨d, hd, rfl, hfailed⟩
  | saveNote | markNote | saveIndexingDeadLetter => exact h
  | getNoteBySourceMessageId | getActiveNoteForExternalMessage | countEventChunksForSource => exact h
  | getActiveChunkForNote | listFailedEventChunks => exact h
  | _ => exact hc.elim

theorem effects {cs : List RepoCall} (h : T.Bare) (hcs : ∀ c ∈ cs, c.OffIndex) :
    (RepoCall.effects cs T).Bare := by
  induction cs generalizing T with
  | nil => exact h
  | cons c cs ih =>
    obtain ⟨hc, hcs⟩ := List.forall_mem_cons.mp hcs
    exact ih (h.effect hc) hcs

/-- A chunk without a record may fail. -/
theorem setFailed (h : T.Bare) (hnone : ∀ r ∈ T.embeddingRecords, r.chunkId ≠ id) :
    (T.setStatus id .failed).Bare := by
  intro c hc hfailed r hr
  obtain ⟨d, hd, rfl⟩ := mem_setStatus.mp hc
  by_cases hid : d.chunkId = id
  · rw [if_pos hid]
    exact fun he => hnone r hr (he.trans hid)
  · rw [if_neg hid] at hfailed ⊢
    exact h d hd hfailed r hr

/-- A record is stored of a chunk that turns ready. -/
theorem stored (h : T.Bare) {record : EmbeddingRecord} (hid : record.chunkId = id) :
    ((T.putRecords [record]).setStatus id .ready).Bare := by
  intro c hc hfailed r hr
  obtain ⟨d, hd, rfl⟩ := mem_setStatus.mp hc
  by_cases hsame : d.chunkId = id
  · rw [if_pos hsame] at hfailed
    cases hfailed
  · rw [if_neg hsame] at hfailed ⊢
    rcases Table.mem_put.mp hr with rfl | ⟨hr, -⟩
    · exact fun he => hsame (he.symm.trans hid)
    · exact h d hd hfailed r hr

end Tables.Bare

/-! ## Requests that are refused no record -/

section Clean

variable {kind : StoreKind} {engine : SearchEngine} {env : Env}
  {w w₁ w' : World (kind.backend engine).State}

/-- A record was refused. -/
def World.Broken {S : Type} (w : World S) : Prop := ∃ rs, .saveEmbeddingRecords rs ∈ w.failures

/-- No record was refused from `w` to `w'`, and there a failed chunk has none. -/
structure Clean (w w' : World (kind.backend engine).State) : Prop where
  unbroken : w'.Broken → w.Broken
  bare : w'.rows.Bare

namespace Clean

theorem refl (h : w.rows.Bare) : Clean w w := ⟨id, h⟩

theorem trans (h : Clean w w₁) (h' : Clean w₁ w') : Clean w w' :=
  ⟨fun hb => h.unbroken (h'.unbroken hb), h'.bare⟩

theorem of_failures (hfailures : w'.failures = w.failures) (h : w'.rows.Bare) : Clean w w' := by
  refine ⟨fun hb => ?_, h⟩
  unfold World.Broken at hb ⊢
  rwa [← hfailures]

theorem of_later (h : w.rows.Bare) (hl : Later w w') : Clean w w' :=
  .of_failures hl.failures (hl.rows ▸ h)

theorem of_told {c : SystemCall} (h : w.rows.Bare) (ht : Told c w w') : Clean w w' :=
  .of_failures ht.failures (ht.rows ▸ h)

theorem of_raised {c : RepoCall} {e : Exn} (h : w.rows.Bare) (hr : Raised env c w e w')
    (hc : c.OffIndex) : Clean w w' := by
  refine ⟨?_, hr.rows ▸ h⟩
  rintro ⟨rs, hrs⟩
  rw [hr.failures, List.mem_append, List.mem_singleton] at hrs
  rcases hrs with hrs | rfl
  · exact ⟨rs, hrs⟩
  · exact hc.elim

theorem of_path {cs : List RepoCall} (h : w.rows.Bare) (hp : Path env w cs w')
    (hcs : ∀ c ∈ cs, c.OffIndex) : Clean w w' := by
  refine .of_failures hp.failures ?_
  rw [hp.rows]
  exact h.effects hcs

theorem of_completes {α : Type} {V : α → Prop} {cs : List RepoCall} {r : Except Exn α}
    (h : w.rows.Bare) (hc : Completes env cs w V r w') (hcs : ∀ c ∈ cs, c.OffIndex) :
    Clean w w' := by
  cases r with
  | ok a => exact .of_path h hc.2 hcs
  | error e =>
    obtain ⟨done, c, rest, w₁, rfl, hp, hr⟩ := hc
    obtain ⟨hdone, hrest⟩ := List.forall_mem_append.mp hcs
    have hfirst : Clean w w₁ := .of_path h hp hdone
    exact hfirst.trans (.of_raised hfirst.bare hr (hrest c List.mem_cons_self))

/-- The dead letter is kept or lost. -/
theorem of_deadLetter {d : IndexingDeadLetter} (h : w.rows.Bare)
    (hdead : Returned env (.saveIndexingDeadLetter d) w () w' ∨
      ∃ e, Raised env (.saveIndexingDeadLetter d) w e w') : Clean w w' := by
  rcases hdead with hr | ⟨e, hr⟩
  · exact .of_path h (.single hr) (List.forall_mem_singleton.mpr trivial)
  · exact .of_raised h hr trivial

/-- A chunk without a record gets one. -/
theorem of_stored {α : Type} {V : α → Prop} {record : EmbeddingRecord} {id : String}
    {r : Except Exn α} (henv : env.Reliable) (h : w.rows.Bare) (hid : record.chunkId = id)
    (hnone : ∀ x ∈ w.rows.embeddingRecords, x.chunkId ≠ id)
    (hc : Completes env [.saveEmbeddingRecords [record], .setChunkEmbeddingStatus id .ready] w V r w') :
    Clean w w' ∧ w'.rows = (w.rows.putRecords [record]).setStatus id .ready := by
  obtain ⟨hfound, -⟩ | ⟨-, -, hp⟩ := hc.stored (henv.reliableFrom 0) (Nat.zero_le _)
  · obtain ⟨x, hx, hkey⟩ := Table.isSome_find?_iff.mp hfound
    exact absurd ((congrArg Prod.fst hkey).trans hid) (hnone x hx)
  · refine ⟨.of_failures hp.failures ?_, hp.rows⟩
    rw [hp.rows]
    exact h.stored hid

end Clean

/-! ### Ingests -/

theorem EmbedOutcome.clean {client : EmbeddingClient} {chunk : EventChunk}
    {answer : Except Exn (List Vec)} {r : Except Exn Unit} (henv : env.Reliable)
    (h : EmbedOutcome env client chunk answer w r w') (hb : w.rows.Bare)
    (hnone : ∀ x ∈ w.rows.embeddingRecords, x.chunkId ≠ chunk.chunkId) : Clean w w' := by
  cases h with
  | mismatch _ _ hl => exact .of_later hb hl
  | stored _ hr _ hc => exact (Clean.of_stored henv hb hr.chunk.symm hnone hc).1
  | unmarked _ hc =>
    obtain ⟨e, w₁, -, -, hr⟩ | ⟨_, _, _, -, -, hrest⟩ := hc.uncons
    · exact (hr.refused henv).elim
    · obtain ⟨_, hr, -⟩ := hrest.of_nil
      cases hr
  | failed _ _ hp hdead =>
    have hmarked : Clean w _ := .of_failures hp.failures (by
      rw [hp.rows]
      exact hb.setFailed hnone)
    exact hmarked.trans (.of_deadLetter hmarked.bare hdead)

theorem IngestOutcome.clean {service : DomainService} {message : InboundMessage}
    {r : Except Exn IngestResult} (henv : env.Reliable) (hT : w.rows.Linked) (hb : w.rows.Bare)
    (h : IngestOutcome env service message w r w') : Clean w w' := by
  cases h with
  | refused hl hr =>
    have hfirst : Clean w _ := .of_later hb hl
    exact hfirst.trans (.of_raised hfirst.bare hr trivial)
  | @replayed s existing _ _ _ _ _ hp hc =>
    have hfirst : Clean w _ := .of_path hb hp (List.forall_mem_singleton.mpr trivial)
    refine hfirst.trans (.of_completes hfirst.bare hc ?_)
    unfold rebuildCalls
    split
    · exact List.forall_mem_nil _
    · refine List.forall_mem_cons.mpr ⟨trivial, fun c hc => ?_⟩
      obtain ⟨_, -, rfl⟩ := List.mem_map.mp hc
      trivial
  | @fresh source now _ w₁ _ hnone hunused hp ho =>
    have hfirst : Clean w w₁ := .of_path hb hp (List.forall_mem_singleton.mpr trivial)
    have hT₁ : w₁.rows.Linked := by
      rw [hp.rows_added hnone]
      exact hT.putSource (s := DomainService.sourceRow message source now) hunused
        (Tables.sourceForKey_eq_none.mp hnone)
    have hcalls : ∀ (parsed : ParsedNote) (noteId chunkId : String),
        ∀ c ∈ (revision w₁.rows message source now parsed noteId chunkId).calls message, c.OffIndex := by
      refine fun parsed noteId chunkId => Revision.forall_mem_calls trivial (fun _ => trivial) trivial
        (fun c hc => ?_) fun _ => ⟨trivial, trivial⟩
      rw [((Revision.mem_chunks rfl).mp hc).2]
      simp [DomainService.newChunk]
    refine hfirst.trans ?_
    cases ho with
    | removed _ hc =>
      exact .of_completes hfirst.bare hc (forall_mem_lookups trivial (fun _ => trivial)
        (forall_mem_flipCalls fun _ => ⟨trivial, trivial⟩))
    | unparsed => exact .refl hfirst.bare
    | stopped _ _ _ _ hc => exact .of_completes hfirst.bare hc (hcalls _ _ _)
    | @saved parsed noteId chunkId _ w₂ _ _ _ _ hu hpath hsaved =>
      have hsave : Clean w₁ w₂ := .of_path hfirst.bare hpath (hcalls _ _ _)
      refine hsave.trans ?_
      cases hsaved with
      | skipped => exact .refl hsave.bare
      | @asked client chunk _ w₃ _ _ hchunks ht ho =>
        have hunrecorded := Revision.unrecorded hT₁ rfl hu (hchunks ▸ List.mem_singleton_self chunk)
        rw [← Revision.effects_calls, ← hpath.rows, ← ht.rows] at hunrecorded
        have htold : Clean w₂ w₃ := .of_told hsave.bare ht
        exact htold.trans (ho.clean henv htold.bare hunrecorded)

/-! ### Retries -/

/-- A failed chunk without a record is retried, and no other chunk is touched. -/
theorem EmbedAgainOutcome.clean {client : EmbeddingClient} {chunk : EventChunk}
    {answer : Except Exn (List Vec)} {r : Except Exn Unit} (henv : env.Reliable)
    (h : EmbedAgainOutcome env client chunk answer w r w') (hb : w.rows.Bare)
    (hnone : ∀ x ∈ w.rows.embeddingRecords, x.chunkId ≠ chunk.chunkId) :
    Clean w w' ∧ ∀ c ∈ w.rows.eventChunks, c.chunkId ≠ chunk.chunkId → c ∈ w'.rows.eventChunks := by
  cases h with
  | unanswered _ hl => exact ⟨.of_later hb hl, fun c hc _ => hl.rows ▸ hc⟩
  | stored _ hkey hc =>
    obtain ⟨hclean, hrows⟩ := Clean.of_stored henv hb (congrArg Prod.fst hkey) hnone hc
    refine ⟨hclean, fun c hcm hne => ?_⟩
    rw [hrows]
    exact Tables.mem_setStatus.mpr ⟨c, hcm, (if_neg hne).symm⟩

theorem GroupOutcome.clean {client : EmbeddingClient} {chunk : EventChunk} {group : RetryGroupOutcome}
    (henv : env.Reliable) (h : GroupOutcome env client chunk w group w') (hb : w.rows.Bare)
    (hchunk : chunk ∈ w.rows.eventChunks) (hfailed : chunk.embeddingStatus = .failed) :
    Clean w w' ∧ ∀ c ∈ w.rows.eventChunks, c.chunkId ≠ chunk.chunkId → c ∈ w'.rows.eventChunks := by
  have hnone := hb chunk hchunk hfailed
  cases h with
  | succeeded ht ho =>
    have htold := Clean.of_told hb ht
    rw [← ht.rows] at hnone ⊢
    obtain ⟨hclean, hothers⟩ := ho.clean henv htold.bare hnone
    exact ⟨htold.trans hclean, hothers⟩
  | failed ht ho hl hdead =>
    have htold := Clean.of_told hb ht
    rw [← ht.rows] at hnone ⊢
    obtain ⟨hclean, hothers⟩ := ho.clean henv htold.bare hnone
    have hlater := Clean.of_later hclean.bare hl
    have hkept : ∀ c ∈ _, c.chunkId ≠ chunk.chunkId → c ∈ w'.rows.eventChunks := fun c hc hne => by
      have hmem := hothers c hc hne
      rw [← hl.rows] at hmem
      rcases hdead with hr | ⟨_, hr⟩
      · rw [hr.rows]
        exact hmem
      · rwa [hr.rows]
    exact ⟨((htold.trans hclean).trans hlater).trans (.of_deadLetter hlater.bare hdead), hkept⟩

theorem GroupsOutcome.clean {client : EmbeddingClient} {chunks : List EventChunk}
    {groups : List RetryGroupOutcome} (henv : env.Reliable)
    (h : GroupsOutcome env client chunks w groups w') (hb : w.rows.Bare)
    (hnodup : (chunks.map EventChunk.chunkId).Nodup)
    (hchunks : ∀ c ∈ chunks, c ∈ w.rows.eventChunks ∧ c.embeddingStatus = .failed) : Clean w w' := by
  induction h with
  | nil => exact .refl hb
  | cons ho _ ih =>
    obtain ⟨hnew, hnodup⟩ := List.nodup_cons.mp hnodup
    obtain ⟨⟨hchunk, hfailed⟩, hrest⟩ := List.forall_mem_cons.mp hchunks
    obtain ⟨hclean, hothers⟩ := ho.clean henv hb hchunk hfailed
    refine hclean.trans (ih hclean.bare hnodup fun c hc => ⟨?_, (hrest c hc).2⟩)
    exact hothers c (hrest c hc).1 fun hid => hnew (List.mem_map.mpr ⟨c, hc, hid⟩)

theorem RetryOutcome.clean {service : ReconciliationService} {community : String}
    {limit : Option Int} {r : Except Exn RetryOutcomeReport} (henv : env.Reliable) (hb : w.rows.Bare)
    (h : RetryOutcome env service community limit w r w') : Clean w w' := by
  cases h with
  | unavailable => exact .refl hb
  | unlisted hr => exact .of_raised hb hr trivial
  | @retried client groups w₁ _ _ hp ho =>
    have hfirst : Clean w w₁ := .of_path hb hp (List.forall_mem_singleton.mpr trivial)
    have hrows : w₁.rows = w.rows := hp.rows
    refine hfirst.trans (ho.clean henv hfirst.bare
      (w.rows.nodup_listFailedEventChunks community limit) fun c hc => ?_)
    obtain ⟨hmem, -, hfailed⟩ := Tables.mem_failedChunks.mp
      ((w.rows.listFailedEventChunks_sublist community limit).subset hc)
    exact ⟨hrows ▸ hmem, hfailed⟩

end Clean

/-! ## One call -/

/-- A call of an ingest, a removal, a discovery or a retry. -/
def Call.OnNotes : Call → Prop
  | .repo c => c.OnNotes
  | .sys _ => True

theorem RepoCall.OnNotes.returns_unique {c : RepoCall} (hc : c.OnNotes) {T : Tables}
    {v v' : RepoReply c} (h : c.Returns T v) (h' : c.Returns T v') : v = v' := by
  cases c with
  | getOrCreateSourceMessage | getNoteBySourceMessageId => exact Eq.trans h (Eq.symm h')
  | getActiveNoteForExternalMessage | countEventChunksForSource => exact Eq.trans h (Eq.symm h')
  | getActiveChunkForNote | listFailedEventChunks => exact Eq.trans h (Eq.symm h')
  | saveNote | saveEventChunks | saveEmbeddingRecords | setChunkEmbeddingStatus => rfl
  | markNote | markChunk | saveIndexingDeadLetter => rfl
  | _ => exact hc.elim

/-- The stores refuse the same calls. -/
theorem RepoCall.OnNotes.refused_iff {c : RepoCall} (hc : c.OnNotes) (kind kind' : StoreKind)
    (T : Tables) : c.Refused kind T ↔ c.Refused kind' T := by
  cases c <;> first | exact Iff.rfl | exact hc.elim

/-- They refuse them with the same words, but for a record that is there. -/
theorem RepoCall.OnNotes.refusal {engine : SearchEngine} {c : RepoCall} (hc : c.OnNotes)
    {s : MockDomainStore} (h : c.Refused .mock s.toTables) :
    (∃ rs, c = .saveEmbeddingRecords rs) ∨
      (s.handle engine c).1 = (SqlDomainStore.handle .sqlite engine c s.toTables).1 := by
  cases c with
  | saveEmbeddingRecords rs => exact .inl ⟨rs, rfl⟩
  | getActiveNoteForExternalMessage | getActiveChunkForNote | listFailedEventChunks => exact .inr rfl
  | getNoteBySourceMessageId | countEventChunksForSource => exact .inr rfl
  | getOrCreateSourceMessage | saveNote | saveEventChunks | setChunkEmbeddingStatus => exact h.elim
  | markNote | markChunk | saveIndexingDeadLetter => exact h.elim
  | _ => exact hc.elim

/-- On the same rows both stores serve a call alike, unless they refuse a record. -/
theorem RepoCall.OnNotes.served_alike {engine : SearchEngine} {c : RepoCall} (hc : c.OnNotes)
    {s : MockDomainStore} (hindexed : s.Indexed) (hT : s.toTables.Linked)
    (hreferences : s.toTables.References) (hg : c.Guard s.toTables) :
    (SqlDomainStore.handle .sqlite engine c s.toTables).2 = (s.handle engine c).2.toTables ∧
      (s.handle engine c).2.toTables.References ∧
      ((∃ rs, c = .saveEmbeddingRecords rs ∧ isRaise (s.handle engine c).1 = true) ∨
        (s.handle engine c).1 = (SqlDomainStore.handle .sqlite engine c s.toTables).1) := by
  have hmock := (@MockDomainStore.serves engine s hindexed c hg).2
  obtain ⟨hkept, hsql⟩ := @SqlDomainStore.serves .sqlite engine s.toTables hT hreferences c hg
  have hrefused := hc.refused_iff .mock (.sql .sqlite) s.toTables
  cases hr : (s.handle engine c).1 with
  | error e =>
    obtain ⟨hno, hs⟩ := hmock.raised e hr
    cases hr' : (SqlDomainStore.handle .sqlite engine c s.toTables).1 with
    | ok v => exact absurd (hrefused.mp hno) (hsql.returned v hr').1
    | error e' =>
      have hT' : (SqlDomainStore.handle .sqlite engine c s.toTables).2 = s.toTables :=
        (hsql.raised e' hr').2
      have hs' : (s.handle engine c).2.toTables = s.toTables := congrArg MockDomainStore.toTables hs
      rw [hT', hs']
      refine ⟨rfl, hreferences, (hc.refusal hno).imp ?_ fun h => (hr ▸ h).trans hr'⟩
      rintro ⟨rs, rfl⟩
      exact ⟨rs, rfl, rfl⟩
  | ok v =>
    obtain ⟨hyes, hv, hs⟩ := hmock.returned v hr
    cases hr' : (SqlDomainStore.handle .sqlite engine c s.toTables).1 with
    | error e => exact absurd (hrefused.mpr (hsql.raised e hr').1) hyes
    | ok v' =>
      obtain ⟨-, hv', hT'⟩ := hsql.returned v' hr'
      have hsame : (SqlDomainStore.handle .sqlite engine c s.toTables).2 =
        (s.handle engine c).2.toTables := Eq.trans hT' hs.symm
      exact ⟨hsame, hsame ▸ hkept, .inr (congrArg Except.ok (hc.returns_unique hv hv'))⟩

/-! ## Calls that SQLite binds -/

/-- Every vector that is answered can be packed. -/
def Env.Packable (env : Env) (encode : Vec → Except Exn Vec) : Prop :=
  ∀ n texts vectors, env.embed n texts = .ok vectors → ∀ v ∈ vectors, ∃ x, encode v = .ok x

/-- The calls that SQLite binds, of vectors that can be packed. -/
def binding (encode : Vec → Except Exn Vec) : Pact Call Reply where
  asks
    | .repo c => c.Binds encode
    | .sys _ => True
  gives
    | .sys (.embed _), r =>
      ∀ vectors : List Vec, r = .ok vectors → ∀ v ∈ vectors, ∃ x, encode v = .ok x
    | _, _ => True

theorem binding_gives {encode : Vec → Except Exn Vec} {env : Env} (hpack : env.Packable encode)
    (B : Backend) (c : Call) (w : World B.State) : (binding encode).gives c (serve B env c w).1 := by
  cases c with
  | repo c => trivial
  | sys c =>
    cases c with
    | embed chunks => exact hpack w.tick _
    | _ => trivial

/-! ## Worlds in step -/

section InStep

variable {encode : Vec → Except Exn Vec} {engine : SearchEngine} {env : Env}
  {w : World (StoreKind.mock.backend engine).State}
  {v : World (SqliteDomainStore.backend encode engine).State}

/-- SQLite holds the rows of the in-memory store, and the next calls outside the stores are
answered alike. -/
structure InStep (env : Env) (w : World (StoreKind.mock.backend engine).State)
    (v : World (SqliteDomainStore.backend encode engine).State) : Prop where
  store : v.store = w.rows.packed (packing encode)
  draws : v.draws = w.draws
  tick : v.tick = w.tick
  latest : v.latestSources = w.latestSources
  sound : Sound env w
  references : w.rows.References

/-- A call is answered by the store when no call fails by itself. -/
theorem serve_reliable (henv : env.Reliable) (B : Backend) (c : RepoCall) (w : World B.State) :
    (serve B env (.repo c) w).1 = (B.handle c w.store).1 ∧
      (serve B env (.repo c) w).2.store = (B.handle c w.store).2 ∧
      (serve B env (.repo c) w).2.draws = w.draws ∧
      (serve B env (.repo c) w).2.latestSources = w.latestSources := by
  simp only [serve, respond, serveRepo, henv w.tick c]
  exact ⟨rfl, rfl, rfl, rfl⟩

namespace InStep

theorem serve_repo (henv : env.Reliable) {c : RepoCall} (hc : c.OnNotes) (hb : c.Binds encode)
    (h : InStep env w v) (ha : Allowed env w (.repo c)) :
    (serve (StoreKind.mock.backend engine) env (.repo c) w).2.Broken ∨
      (serve (StoreKind.mock.backend engine) env (.repo c) w).1 =
          (serve (SqliteDomainStore.backend encode engine) env (.repo c) v).1 ∧
        InStep env (serve (StoreKind.mock.backend engine) env (.repo c) w).2
          (serve (SqliteDomainStore.backend encode engine) env (.repo c) v).2 := by
  obtain ⟨hrows, hreferences, halike⟩ := @RepoCall.OnNotes.served_alike engine _ hc _
    h.sound.consistent h.sound.linked h.references ha.1
  obtain ⟨hreply, hstore, hdraws, hlatest⟩ := serve_reliable henv (StoreKind.mock.backend engine) c w
  obtain ⟨hreply', hstore', hdraws', hlatest'⟩ :=
    serve_reliable henv (SqliteDomainStore.backend encode engine) c v
  have hpacked := handle_packed encode engine hc hb w.rows
  rw [← h.store] at hpacked
  rcases halike with ⟨rs, rfl, hraised⟩ | halike
  · refine .inl ⟨rs, ?_⟩
    unfold World.failures
    rw [log_serve, List.filterMap_append, List.mem_append]
    refine .inr ?_
    have hevent : raised (.repo (.saveEmbeddingRecords rs))
        (serve (StoreKind.mock.backend engine) env (.repo (.saveEmbeddingRecords rs)) w).1 = true :=
      (congrArg isRaise hreply).trans hraised
    rw [hevent]
    exact List.mem_singleton_self _
  · have hstores : (serve (StoreKind.mock.backend engine) env (.repo c) w).2.rows =
        (MockDomainStore.handle engine c w.store).2.toTables := congrArg MockDomainStore.toTables hstore
    refine .inr ⟨?_, ?_, ?_, ?_, ?_, (serve_allowed h.sound ha).1, hstores ▸ hreferences⟩
    · exact hreply.trans (halike.trans ((congrArg Prod.fst hpacked).symm.trans hreply'.symm))
    · rw [hstores, ← hrows]
      exact hstore'.trans (congrArg Prod.snd hpacked)
    · exact hdraws'.trans (h.draws.trans hdraws.symm)
    · rw [tick_serve, tick_serve, h.tick]
    · exact hlatest'.trans (h.latest.trans hlatest.symm)

/-- Outside the stores both worlds are answered alike. -/
theorem serve_sys (c : SystemCall) (h : InStep env w v) :
    (serve (StoreKind.mock.backend engine) env (.sys c) w).1 =
        (serve (SqliteDomainStore.backend encode engine) env (.sys c) v).1 ∧
      InStep env (serve (StoreKind.mock.backend engine) env (.sys c) w).2
        (serve (SqliteDomainStore.backend encode engine) env (.sys c) v).2 := by
  have hsound := (serve_allowed h.sound (c := .sys c) trivial).1
  have htick : (serve (SqliteDomainStore.backend encode engine) env (.sys c) v).2.tick =
      (serve (StoreKind.mock.backend engine) env (.sys c) w).2.tick := by
    rw [tick_serve, tick_serve, h.tick]
  have hstore : (serve (StoreKind.mock.backend engine) env (.sys c) w).2.rows = w.rows := by
    cases c <;> rfl
  have hrest : (serve (StoreKind.mock.backend engine) env (.sys c) w).1 =
        (serve (SqliteDomainStore.backend encode engine) env (.sys c) v).1 ∧
      (serve (SqliteDomainStore.backend encode engine) env (.sys c) v).2.store = v.store ∧
      (serve (SqliteDomainStore.backend encode engine) env (.sys c) v).2.draws =
        (serve (StoreKind.mock.backend engine) env (.sys c) w).2.draws ∧
      (serve (SqliteDomainStore.backend encode engine) env (.sys c) v).2.latestSources =
        (serve (StoreKind.mock.backend engine) env (.sys c) w).2.latestSources := by
    cases c <;> simp [serve, respond, answer, World.record, h.draws, h.tick, h.latest] <;> rfl
  obtain ⟨hreply, hstore', hdraws, hlatest⟩ := hrest
  refine ⟨hreply, ?_, hdraws, htick, hlatest, hsound, hstore ▸ h.references⟩
  rw [hstore', hstore]
  exact h.store

theorem serve (henv : env.Reliable) {c : Call} (hc : c.OnNotes) (hb : (binding encode).asks c)
    (h : InStep env w v) (ha : Allowed env w c) :
    (DiaryMemory.serve (StoreKind.mock.backend engine) env c w).2.Broken ∨
      (DiaryMemory.serve (StoreKind.mock.backend engine) env c w).1 =
          (DiaryMemory.serve (SqliteDomainStore.backend encode engine) env c v).1 ∧
        InStep env (DiaryMemory.serve (StoreKind.mock.backend engine) env c w).2
          (DiaryMemory.serve (SqliteDomainStore.backend encode engine) env c v).2 := by
  cases c with
  | repo c => exact h.serve_repo henv hc hb ha
  | sys c => exact .inr (h.serve_sys c)

/-- A procedure that makes such calls runs alike on both stores. -/
theorem exec {α : Type} {p : Proc α}
    {Q : Except Exn α → World (StoreKind.mock.backend engine).State → Prop} (henv : env.Reliable)
    (hpack : env.Packable encode) (h : InStep env w v)
    (hw : wp (contract .mock engine env fun c _ => c.OnNotes) p Q w)
    (hb : (binding encode).Ensures p fun _ => True) :
    (p.exec (StoreKind.mock.backend engine) env w).2.Broken ∨
      (p.exec (StoreKind.mock.backend engine) env w).1 =
          (p.exec (SqliteDomainStore.backend encode engine) env v).1 ∧
        InStep env (p.exec (StoreKind.mock.backend engine) env w).2
          (p.exec (SqliteDomainStore.backend encode engine) env v).2 := by
  have hbroken : ∀ c (u : World (StoreKind.mock.backend engine).State), u.Broken →
      (DiaryMemory.serve (StoreKind.mock.backend engine) env c u).2.Broken := by
    rintro c u ⟨rs, hrs⟩
    refine ⟨rs, ?_⟩
    unfold World.failures
    rw [log_serve, List.filterMap_append, List.mem_append]
    exact .inl hrs
  refine (@Prog.run_lockstep_unless _ _ _ _ _ _ _ _ _ id _ _ hbroken (fun c u u' hu hpre => ?_) p.run
    _ _ _ h (Prog.wp_beside p.run hw hb.keeps)).imp id fun ⟨hreply, hin, _⟩ => ⟨hreply, hin⟩
  obtain ⟨⟨hallowed, hnotes⟩, hbinds⟩ := hpre
  exact ⟨⟨serve_allowed hu.sound hallowed, binding_gives hpack _ c u⟩,
    hu.serve henv hnotes hbinds hallowed⟩

end InStep

end InStep

/-! ## Requests -/

/-- A request on the notes of a community. -/
inductive Request where
  | ingest (service : DomainService) (message : InboundMessage)
  | delete (chat target community : String)
  | discover (community : String) (limit : Option Int)
  | retry (service : ReconciliationService) (community : String) (limit : Option Int)

namespace Request

/-- What a request returns. -/
def Result : Request → Type
  | ingest .. => IngestResult
  | delete .. => DeleteOutcome
  | discover .. => FailedEmbeddingReport
  | retry .. => RetryOutcomeReport

/-- The procedure of a request. -/
def proc : (q : Request) → Proc q.Result
  | ingest service message => service.ingest message
  | delete chat target community =>
    DomainService.deleteNoteForExternalMessage chat target community
  | discover community limit => ReconciliationService.discoverFailedChunks community limit
  | retry service community limit => service.retryFailedChunks community limit

/-- The integers of a request fit 64 bits. -/
def Binds : Request → Prop
  | ingest service message =>
    BindsInt message.editSeq ∧ ∀ client ∈ service.embeddingClient, BindsInt client.dimension
  | delete .. => True
  | discover _ limit => ∀ n ∈ limit, n < 2 ^ 63
  | retry service _ limit =>
    (∀ n ∈ limit, n < 2 ^ 63) ∧ ∀ client ∈ service.embeddingClient, BindsInt client.dimension

end Request

section Binding

open Pact

variable {encode : Vec → Except Exn Vec}

theorem binding_routine : (binding encode).Routine := by
  rintro (c | c) hc
  · cases c with
    | getOrCreateSourceMessage | saveEventChunks | saveEmbeddingRecords => exact hc.elim
    | listFailedEventChunks => exact hc.elim
    | _ => trivial
  · trivial

theorem binding_stores {client : EmbeddingClient} (h : BindsInt client.dimension) :
    (binding encode).Stores client := by
  intro chunks vectors hvectors records hrecords r hr
  obtain ⟨hdimension, hmem⟩ := hrecords r hr
  exact ⟨hdimension ▸ h, hvectors vectors rfl _ hmem⟩

theorem binding_ingests {service : DomainService} {message : InboundMessage}
    (hseq : BindsInt message.editSeq)
    (hclient : ∀ client ∈ service.embeddingClient, BindsInt client.dimension) :
    (binding encode).Ingests service message where
  routine := binding_routine
  source _ _ := hseq
  chunks _ _ _ _ chunks hchunks c hc := by
    obtain ⟨noteId, priorNote, chunkId, priorChunk, rfl⟩ := hchunks c hc
    exact (by decide : BindsInt 0)
  records client hmem := binding_stores (hclient client hmem)

/-- SQLite binds the calls of a request whose integers fit. -/
theorem Request.Binds.ensures {q : Request} (h : q.Binds) :
    (binding encode).Ensures q.proc fun _ => True := by
  cases q with
  | ingest service message => exact (binding_ingests h.1 h.2).ingest
  | delete chat target community => exact ensures_delete binding_routine chat target community
  | discover community limit => exact ensures_seq (ensures_repo h) fun _ => ensures_done _
  | retry service community limit =>
    exact ensures_retry binding_routine h.1 fun client hmem => binding_stores (h.2 client hmem)

end Binding

/-- Serve requests in turn, whatever they return. -/
def serveAll (B : Backend) (env : Env) : List Request → World B.State →
    List (Σ q : Request, Except Exn q.Result) × World B.State
  | [], w => ([], w)
  | q :: qs, w =>
    let r := q.proc.exec B env w
    let rest := serveAll B env qs r.2
    (⟨q, r.1⟩ :: rest.1, rest.2)

section Requests

variable {encode : Vec → Except Exn Vec} {engine : SearchEngine} {env : Env}
  {w : World (StoreKind.mock.backend engine).State}
  {v : World (SqliteDomainStore.backend encode engine).State}

theorem IngestCall.onNotes {client : Option EmbeddingClient} {source community : String} {c : Call}
    {T : Tables} (h : IngestCall env client source community c T) : c.OnNotes := by
  cases c with
  | sys c => trivial
  | repo c => cases c <;> trivial

theorem DeleteCall.onNotes {community : String} {c : Call} {T : Tables}
    (h : DeleteCall community c T) : c.OnNotes := by
  cases c with
  | sys c => trivial
  | repo c => cases c <;> trivial

theorem RetryCall.onNotes {client : Option EmbeddingClient} {community : String}
    {limit : Option Int} {T₀ T : Tables} {c : Call}
    (h : RetryCall env client community limit T₀ c T) : c.OnNotes := by
  cases c with
  | sys c => trivial
  | repo c => cases c <;> trivial

/-- Every request makes calls on notes, and is refused no record. -/
theorem Request.wp_clean (henv : env.Reliable) (hs : Sound env w) (hb : w.rows.Bare) (q : Request) :
    wp (contract .mock engine env fun c _ => c.OnNotes) q.proc (fun _ w' => Clean w w') w := by
  cases q with
  | ingest service message =>
    exact wp_imp (fun _ _ ho => ho.clean henv hs.linked hb)
      (wp_ingest hs fun c T ⟨_, _, h⟩ => h.onNotes)
  | delete chat target community =>
    refine wp_imp (fun _ _ ho => .of_completes hb ho (forall_mem_lookups trivial
      (fun _ => trivial) (forall_mem_flipCalls fun _ => ⟨trivial, trivial⟩)))
      (wp_deleteNote hs chat target community fun c T h => h.onNotes)
  | discover community limit =>
    exact wp_repo_bind ⟨trivial, nofun⟩ trivial (fun _ _ _ hr => .of_raised hb hr trivial)
      fun _ _ _ hr => .of_path hb (.single hr) (List.forall_mem_singleton.mpr trivial)
  | retry service community limit =>
    exact wp_imp (fun _ _ ho => ho.clean henv hb)
      (wp_retryFailedChunks service fun c T h => h.onNotes)

/-- What holds of the two worlds between requests. -/
structure Abreast (env : Env) (w : World (StoreKind.mock.backend engine).State)
    (v : World (SqliteDomainStore.backend encode engine).State) : Prop where
  inStep : InStep env w v
  bare : w.rows.Bare
  unbroken : ¬ w.Broken

/-- A request is answered alike by both stores. -/
theorem Abreast.exec (henv : env.Reliable) (hpack : env.Packable encode) (h : Abreast env w v)
    {q : Request} (hq : q.Binds) :
    (q.proc.exec (StoreKind.mock.backend engine) env w).1 =
        (q.proc.exec (SqliteDomainStore.backend encode engine) env v).1 ∧
      Abreast env (q.proc.exec (StoreKind.mock.backend engine) env w).2
        (q.proc.exec (SqliteDomainStore.backend encode engine) env v).2 := by
  have hw := Request.wp_clean henv h.inStep.sound h.bare q
  obtain ⟨-, -, hclean⟩ := Proc.exec_of_wp h.inStep.sound hw
  have hunbroken := fun hb => h.unbroken (hclean.unbroken hb)
  obtain ⟨hreply, hin⟩ := (h.inStep.exec henv hpack hw hq.ensures).resolve_left hunbroken
  exact ⟨hreply, hin, hclean.bare, hunbroken⟩

theorem Abreast.serveAll (henv : env.Reliable) (hpack : env.Packable encode) {qs : List Request}
    (hqs : ∀ q ∈ qs, q.Binds) (h : Abreast env w v) :
    (DiaryMemory.serveAll (StoreKind.mock.backend engine) env qs w).1 =
        (DiaryMemory.serveAll (SqliteDomainStore.backend encode engine) env qs v).1 ∧
      Abreast env (DiaryMemory.serveAll (StoreKind.mock.backend engine) env qs w).2
        (DiaryMemory.serveAll (SqliteDomainStore.backend encode engine) env qs v).2 := by
  induction qs generalizing w v with
  | nil => exact ⟨rfl, h⟩
  | cons q qs ih =>
    obtain ⟨hq, hqs⟩ := List.forall_mem_cons.mp hqs
    obtain ⟨hreply, hnext⟩ := h.exec henv hpack hq
    obtain ⟨hreplies, hlast⟩ := ih hqs hnext
    refine ⟨?_, hlast⟩
    simp only [DiaryMemory.serveAll, hreply, hreplies]

/-- The world with an empty database. -/
def SqliteDomainStore.initial (encode : Vec → Except Exn Vec) (engine : SearchEngine) :
    World (SqliteDomainStore.backend encode engine).State where
  store := (SqliteDomainStore.backend encode engine).init

end Requests

/-! ## Two stores, one observer -/

end DiaryMemory
