import DiaryMemory.Arrival
import DiaryMemory.Capture
import DiaryMemory.Durability
import DiaryMemory.Measures
import DiaryMemory.Redelivery

/-!
# What the harness ingests

With a store that does not fail and an embedding client that answers one vector per text, a new
note with a body is ingested in full : no call raises (`IngestOutcome.unfailed`), and its source row
owns one chunk, which is embedded (`ingest_ready`).

Handles name a message by its external id alone. `ingestFixtureCorpus` returns a map in which the
handle of a message resolves to its own chunk, as long as no later message of the corpus has its
external id (`fixtures_resolve`); a message of another community with the same id takes the handle
over, and a note without a body ends the ingest.
-/

namespace DiaryMemory

/-- The provider answers one vector per text. -/
def Env.EmbedsEach (env : Env) : Prop :=
  ∀ n texts, ∃ vectors, env.embed n texts = .ok vectors ∧ vectors.length = texts.length

section Ingested

variable {kind : StoreKind} {engine : SearchEngine} {env : Env}
  {w w' : World (kind.backend engine).State}

/-! ## An ingest in which nothing fails -/

/-- Calls none of which is refused where it comes raise nothing. -/
theorem Completes.unfailed {α : Type} {V : α → Prop} {cs : List RepoCall} {r : Except Exn α}
    (henv : env.Reliable) (hcs : ∀ done c rest, cs = done ++ c :: rest →
      ¬ c.Refused kind (RepoCall.effects done w.rows))
    (h : Completes env cs w V r w') : w'.failures = w.failures := by
  cases r with
  | ok a => exact h.2.failures
  | error e =>
    obtain ⟨done, c, rest, w₁, hsplit, hp, hr⟩ := h
    have hrefused := hr.refused henv
    rw [hp.rows] at hrefused
    exact absurd hrefused (hcs done c rest hsplit)

/-- The embedding of a chunk without a record raises nothing, when the provider answers one
vector. -/
theorem EmbedOutcome.unfailed {client : EmbeddingClient} {chunk : EventChunk}
    {answer : Except Exn (List Vec)} {r : Except Exn Unit} (henv : env.Reliable)
    (h : EmbedOutcome env client chunk answer w r w') {vector : Vec} (hanswer : answer = .ok [vector])
    (hnew : ∀ x ∈ w.rows.embeddingRecords, x.chunkId ≠ chunk.chunkId) :
    w'.failures = w.failures := by
  cases h with
  | mismatch _ _ hl => exact hl.failures
  | @stored record _ _ _ hr hm hc =>
    obtain ⟨hfound, -⟩ | ⟨-, -, hp⟩ := hc.stored (henv.reliableFrom 0) (Nat.zero_le _)
    · obtain ⟨x, hx, hkey⟩ := Table.isSome_find?_iff.mp hfound
      exact absurd ((congrArg Prod.fst hkey).trans hr.chunk.symm) (hnew x hx)
    · exact hp.failures
  | unmarked hfailed =>
    rw [hanswer] at hfailed
    cases hfailed
  | failed hfailed =>
    rw [hanswer] at hfailed
    cases hfailed

/-- Nothing is refused of a new note. -/
theorem IngestOutcome.unfailed {service : DomainService} {message : InboundMessage}
    {r : Except Exn IngestResult} (henv : env.Reliable) (hembed : env.EmbedsEach)
    (hT : w.rows.Linked) (hcommunity : message.communityId ≠ "") (hroute : message.route = .note)
    (hnone : w.rows.sourceForKey message.messageKey = none)
    (h : IngestOutcome env service message w r w') : w'.failures = w.failures := by
  cases h with
  | refused hl hr => exact absurd (hr.refused henv) id
  | replayed hexisting =>
    rw [hnone] at hexisting
    cases hexisting
  | @fresh source now _ w₁ _ _ hunused hp ho =>
    rw [← hp.failures]
    have hT₁ : w₁.rows.Linked := by
      rw [hp.rows_added hnone]
      exact hT.putSource (s := DomainService.sourceRow message source now) hunused
        (Tables.sourceForKey_eq_none.mp hnone)
    cases ho with
    | removed hdraft =>
      rw [hroute] at hdraft
      cases hdraft
    | unparsed => rfl
    | stopped _ _ hids hu hc =>
      refine hc.unfailed henv fun done c rest hsplit => ?_
      have hmem : c ∈ done ++ c :: rest := List.mem_append_right _ List.mem_cons_self
      rw [← hsplit] at hmem
      exact not_refused_calls hcommunity _ c hmem _
    | @saved parsed noteId chunkId r₁ w₂ _ _ hparse hids hu hpath hsaved =>
      rw [← hpath.failures]
      cases hsaved with
      | skipped => rfl
      | @asked client chunk _ w₃ _ hclient hchunks ht ho =>
        rw [← ht.failures]
        obtain ⟨vectors, hanswer, hlength⟩ := hembed w₂.tick [chunk.chunkText]
        obtain ⟨vector, rfl⟩ := List.length_eq_one_iff.mp hlength
        have hunrecorded := Revision.unrecorded hT₁ rfl hu (hchunks ▸ List.mem_singleton_self chunk)
        rw [← Revision.effects_calls, ← hpath.rows, ← ht.rows] at hunrecorded
        exact ho.unfailed henv hanswer hunrecorded

/-- The result of a new message names the source row that was added. -/
theorem IngestOutcome.source_added {service : DomainService} {message : InboundMessage}
    {result : IngestResult} (hnone : w.rows.sourceForKey message.messageKey = none)
    (h : IngestOutcome env service message w (.ok result) w') :
    ∃ now, DomainService.sourceRow message result.sourceMessageId now ∈ w'.rows.sourceMessages := by
  generalize hr : (Except.ok result : Except Exn IngestResult) = r at h
  cases h with
  | refused => cases hr
  | replayed hexisting =>
    rw [hnone] at hexisting
    cases hexisting
  | @fresh source now _ w₁ _ _ hunused hp ho =>
    have hrow : DomainService.sourceRow message source now ∈ w'.rows.sourceMessages := by
      rw [ho.sourceMessages, hp.rows_added hnone]
      exact Table.mem_put_self
    have hsource : result.sourceMessageId = source := by
      cases ho with
      | removed _ hc =>
        rw [← hr] at hc
        rw [hc.1]
      | unparsed =>
        cases hr
        rfl
      | stopped => cases hr
      | @saved _ _ _ r₁ =>
        cases r₁ with
        | error e => cases hr
        | ok u =>
          cases hr
          rfl
    exact ⟨now, hsource ▸ hrow⟩

/-- The chunk of a message : the only one of its source row. -/
structure Tables.HoldsChunk (T : Tables) (message : InboundMessage) (parsed : ParsedNote)
    (source : String) (chunk : EventChunk) : Prop where
  row : ∃ s ∈ T.sourceMessages, s.sourceMessageId = source ∧ s.messageKey = message.messageKey ∧
    s.communityId = message.communityId ∧ s.rawText = message.payload
  mem : chunk ∈ T.eventChunks
  owner : chunk.sourceMessageId = source
  community : chunk.communityId = message.communityId
  place : chunk.eventIndex = 0
  text : chunk.chunkText = parsed.body
  ready : chunk.embeddingStatus = .ready
  only : ∀ c ∈ T.eventChunks, c.sourceMessageId = source → c = chunk

/-- A new note with a body is ingested in full. -/
theorem ingest_ready (henv : env.Reliable) (hembed : env.EmbedsEach) (hs : Sound env w)
    (client : EmbeddingClient) (message : InboundMessage) {parsed : ParsedNote}
    (hcommunity : message.communityId ≠ "") (hroute : message.route = .note)
    (hparse : parseNote message.payload = some parsed) (hbody : parsed.body ≠ "")
    (hnone : w.rows.sourceForKey message.messageKey = none) :
    ∃ result chunk, ((DomainService.ingest ⟨some client⟩ message).exec (kind.backend engine) env w).1 =
        .ok result ∧
      ((DomainService.ingest ⟨some client⟩ message).exec (kind.backend engine) env
        w).2.rows.HoldsChunk message parsed result.sourceMessageId chunk := by
  have hout := ingest_outcome hs ⟨some client⟩ message
  have hs' : Sound env ((DomainService.ingest ⟨some client⟩ message).exec (kind.backend engine) env
      w).2 := (Operation.run_spec hs (.ingest ⟨some client⟩ message)).1
  generalize ((DomainService.ingest ⟨some client⟩ message).exec (kind.backend engine) env w).1 = r
    at hout ⊢
  generalize ((DomainService.ingest ⟨some client⟩ message).exec (kind.backend engine) env w).2 = w'
    at hout hs' ⊢
  have hfailures := hout.unfailed henv hembed hs.linked hcommunity hroute hnone
  obtain ⟨result, rfl, -⟩ := hout.first hnone hfailures fun n e chunks vectors _ _ _ hvectors => by
    obtain ⟨vectors', hanswer, hlength⟩ := hembed n (chunks.map EventChunk.chunkText)
    rw [hanswer] at hvectors
    cases hvectors
    rw [hlength, List.length_map]
  obtain ⟨now, hrow⟩ := hout.source_added hnone
  have hstored : w'.rows.sourceForKey message.messageKey ≠ none := fun hgone =>
    Tables.sourceForKey_eq_none.mp hgone _ hrow rfl
  obtain ⟨⟨source, now', noteId, chunkId, status, hrow', howns, hsettles⟩, -⟩ :=
    hout.persisted hs.linked hnone hroute hparse hstored (by
      rw [hfailures, List.drop_length]
      nofun)
  have hsource : source = result.sourceMessageId :=
    congrArg SourceMessage.sourceMessageId (hs'.linked.key_unique _ hrow' _ hrow rfl)
  obtain rfl : status = .ready := by
    obtain ⟨n, hstatus⟩ := hsettles hbody
    obtain ⟨vectors, hanswer, hlength⟩ := hembed n [parsed.body]
    obtain ⟨vector, rfl⟩ := List.length_eq_one_iff.mp hlength
    rw [hstatus, hanswer]
    rfl
  generalize hv : revision (w.rows.putSource (DomainService.sourceRow message source now')) message
    source now' parsed noteId chunkId = v at howns
  have hmem := (Revision.mem_chunks hv.symm).mpr ⟨hbody, rfl⟩
  obtain ⟨hchunk, hof⟩ := (howns.chunk _).mpr (List.mem_map_of_mem hmem)
  refine ⟨result, _, rfl, ⟨_, hrow, rfl, rfl, rfl, rfl⟩, hchunk, hof.trans hsource, ?_, rfl, ?_, rfl,
    fun c hc hcs => ?_⟩
  · rw [← hv]
    rfl
  · rw [← hv]
    rfl
  · obtain ⟨d, hd, rfl⟩ := List.mem_map.mp ((howns.chunk c).mp ⟨hc, hcs.trans hsource.symm⟩)
    rw [((Revision.mem_chunks hv.symm).mp hd).2]

/-- An ingest removes nothing. -/
theorem evolves_ingest (hs : Sound env w) (service : DomainService) (message : InboundMessage) :
    Tables.Evolves (fun _ => False) w.rows
      ((service.ingest message).exec (kind.backend engine) env w).2.rows := by
  obtain ⟨-, es, -, ht⟩ := Operation.run_spec hs (.ingest service message)
  refine ht.evolves.mono fun id hid => ?_
  obtain ⟨e, he, hremoval⟩ := List.mem_filterMap.mp hid
  obtain ⟨source, -, hcall⟩ := ht.promised e he
  unfold Event.removal at hremoval
  split at hremoval
  · next hdelete =>
    rw [hdelete] at hcall
    exact hcall
  · cases hremoval

/-- An ingest adds no other message state. -/
theorem sourceForKey_ingest (hs : Sound env w) (service : DomainService)
    (message : InboundMessage) (hnew : w.rows.sourceForKey message.messageKey = none)
    {key : MessageKey} (hkey : key ≠ message.messageKey)
    (hnone : w.rows.sourceForKey key = none) :
    ((service.ingest message).exec (kind.backend engine) env w).2.rows.sourceForKey key = none := by
  rw [Tables.sourceForKey_eq_none] at hnone ⊢
  intro s hsm he
  rcases (ingest_outcome hs service message).sources hnew with ⟨source, now, hrows⟩ | ⟨hrows, -⟩
  · rw [← Table.mem_rows, hrows] at hsm
    rcases List.mem_append.mp hsm with hsm | hsm
    · exact hnone s hsm he
    · rw [List.mem_singleton.mp hsm] at he
      exact hkey he.symm
  · rw [hrows] at hsm
    exact hnone s hsm he

end Ingested

/-! ## Handles -/

/-- A lookup finds chunks of the source row, and those that are embedded. -/
structure FindsChunks (chunksForSource : Tables → String → List EventChunk) : Prop where
  sound : ∀ T id, ∀ c ∈ chunksForSource T id, c ∈ T.eventChunks ∧ c.sourceMessageId = id
  ready : ∀ T id, ∀ c ∈ T.eventChunks, c.sourceMessageId = id → c.embeddingStatus = .ready →
    c ∈ chunksForSource T id

theorem findsChunks_mock : FindsChunks mockChunksForSource where
  sound T id c hc := by
    obtain ⟨hmem, hc⟩ := List.mem_filter.mp hc
    exact ⟨hmem, (of_decide_eq_true hc).1⟩
  ready T id c hc hsource hready := List.mem_filter.mpr ⟨hc, decide_eq_true ⟨hsource, hready⟩⟩

theorem findsChunks_postgres : FindsChunks postgresChunksForSource where
  sound T id c hc := by
    obtain ⟨hmem, hc⟩ := List.mem_filter.mp (mem_oldestFirst.mp hc)
    exact ⟨hmem, of_decide_eq_true hc⟩
  ready T id c hc hsource _ :=
    mem_oldestFirst.mpr (List.mem_filter.mpr ⟨hc, decide_eq_true hsource⟩)

/-- Setting one handle any number of times. -/
theorem find?_foldl_put {externalMessageId : String} {chunk : EventChunk} (chunks : List EventChunk)
    (hall : ∀ c ∈ chunks, c = chunk) (handles : Handles) (k : String) :
    (chunks.foldl (fun handles c => handles.put (handleOf externalMessageId c, c.chunkId))
      handles).find? k =
      if chunks ≠ [] ∧ handleOf externalMessageId chunk = k then some (k, chunk.chunkId)
      else handles.find? k := by
  induction chunks generalizing handles with
  | nil => exact (if_neg fun h => h.1 rfl).symm
  | cons c chunks ih =>
    obtain rfl := hall c List.mem_cons_self
    rw [List.foldl_cons, ih fun d hd => hall d (List.mem_cons_of_mem _ hd), Table.find?_put]
    by_cases hk : handleOf externalMessageId c = k
    · simp [hk]
    · simp [hk]

/-- The handle of the one chunk of a message is set, and no other. -/
theorem find?_setHandles {externalMessageId : String} {chunks : List EventChunk}
    {chunk : EventChunk} (hmem : chunk ∈ chunks) (honly : ∀ c ∈ chunks, c = chunk)
    (handles : Handles) (k : String) :
    (setHandles externalMessageId chunks handles).find? k =
      if handleOf externalMessageId chunk = k then some (k, chunk.chunkId)
      else handles.find? k := by
  have hne : oldestFirst EventChunk.eventIndex chunks ≠ [] :=
    List.ne_nil_of_mem (mem_oldestFirst.mpr hmem)
  rw [setHandles, find?_foldl_put _ fun c hc => honly c (mem_oldestFirst.mp hc)]
  simp only [hne, ne_eq, not_false_eq_true, true_and]

namespace CorpusMessage

/-- A note with a body, in a community. -/
structure Ingestible (cm : CorpusMessage) : Prop where
  community : cm.communityId ≠ ""
  note : ∃ parsed, parseNote cm.rawText = some parsed ∧ parsed.body ≠ ""

/-- The message state the harness delivers. -/
def messageKey (cm : CorpusMessage) : MessageKey := (cm.communityId, cm.externalMessageId, 0)

/-- The handle of the one chunk of a message. -/
def handle (cm : CorpusMessage) : String := cm.externalMessageId ++ "#0"

theorem handle_inj {cm cm' : CorpusMessage} :
    cm.handle = cm'.handle ↔ cm.externalMessageId = cm'.externalMessageId := by
  refine ⟨fun h => ?_, fun h => congrArg (· ++ "#0") h⟩
  have hlist := congrArg String.toList h
  rw [handle, handle, String.toList_append, String.toList_append] at hlist
  exact String.toList_inj.mp (List.append_cancel_right hlist)

end CorpusMessage

/-- The message is the last one of the corpus with its external id. -/
def IsLast (corpus : List CorpusMessage) (cm : CorpusMessage) : Prop :=
  ∃ before after, corpus = before ++ cm :: after ∧
    ∀ later ∈ after, later.externalMessageId ≠ cm.externalMessageId

/-- The id is the one of the message's own chunk : of its source row, in its community, with its
body. -/
def Tables.OwnChunk (T : Tables) (cm : CorpusMessage) (id : String) : Prop :=
  ∃ s ∈ T.sourceMessages, ∃ c ∈ T.eventChunks, s.messageKey = cm.messageKey ∧
    s.communityId = cm.communityId ∧ s.rawText = cm.rawText ∧
    c.sourceMessageId = s.sourceMessageId ∧ c.communityId = cm.communityId ∧
    (parseNote cm.rawText).map ParsedNote.body = some c.chunkText ∧ c.chunkId = id

theorem Tables.Evolves.ownChunk {T T' : Tables} (h : Tables.Evolves (fun _ => False) T T')
    {cm : CorpusMessage} {id : String} (hown : T.OwnChunk cm id) : T'.OwnChunk cm id := by
  obtain ⟨s, hs, c, hc, hkey, hcommunity, htext, hof, hchunk, hbody, hid⟩ := hown
  obtain ⟨c', hc', hsame, -⟩ := (h.chunks c hc).resolve_right not_false
  refine ⟨s, (h.sources s hs).resolve_right not_false, c', hc', hkey, hcommunity, htext,
    hsame.sourceMessageId.trans hof, hsame.communityId.trans hchunk, ?_,
    hsame.chunkId.trans hid⟩
  rw [hbody]
  exact congrArg some (congrArg EventChunk.chunkText hsame).symm

/-- The handle of the message resolves to its own chunk. -/
def Handles.Resolves (handles : Handles) (T : Tables) (cm : CorpusMessage) : Prop :=
  ∃ id, handles.find? cm.handle = some (cm.handle, id) ∧ T.OwnChunk cm id

section Fixtures

variable {kind : StoreKind} {engine : SearchEngine} {env : Env}
  {w : World (kind.backend engine).State} {chunksForSource : Tables → String → List EventChunk}

/-- A message whose chunks are found puts their handles before the rest of the corpus. -/
theorem ingestMessages_embedded {client : EmbeddingClient} {reprStr : String → String}
    {receivedAt : DateTime} {cm : CorpusMessage} {corpus : List CorpusMessage} {handles : Handles}
    {w₁ : World (kind.backend engine).State} {result : IngestResult}
    (hexec : (DomainService.ingest ⟨some client⟩ (cm.inbound receivedAt)).exec (kind.backend engine)
      env w = (.ok result, w₁))
    (hchunks : chunksForSource w₁.rows result.sourceMessageId ≠ []) :
    ingestMessages (kind.backend engine) env chunksForSource client reprStr receivedAt
        (cm :: corpus) handles w =
      ingestMessages (kind.backend engine) env chunksForSource client reprStr receivedAt corpus
        (setHandles cm.externalMessageId (chunksForSource w₁.rows result.sourceMessageId) handles)
        w₁ := by
  rw [ingestMessages, hexec]
  obtain ⟨c, cs, hcs⟩ := List.exists_cons_of_ne_nil hchunks
  rw [World.rows] at hcs ⊢
  simp only [hcs]

/-- One message of the corpus : its handle is set to its own chunk, and no other handle. -/
theorem ingestMessages_cons (henv : env.Reliable) (hembed : env.EmbedsEach)
    (hfinds : FindsChunks chunksForSource) (hs : Sound env w) (client : EmbeddingClient)
    (reprStr : String → String) (receivedAt : DateTime) {cm : CorpusMessage}
    (hcm : cm.Ingestible) (hnew : w.rows.sourceForKey cm.messageKey = none)
    (corpus : List CorpusMessage) (handles : Handles) :
    ∃ (handles₁ : Handles) (w₁ : World (kind.backend engine).State),
      ingestMessages (kind.backend engine) env chunksForSource client reprStr receivedAt
          (cm :: corpus) handles w =
        ingestMessages (kind.backend engine) env chunksForSource client reprStr receivedAt corpus
          handles₁ w₁ ∧
      w₁ = ((DomainService.ingest ⟨some client⟩ (cm.inbound receivedAt)).exec (kind.backend engine)
        env w).2 ∧
      handles₁.Resolves w₁.rows cm ∧
      ∀ k, cm.handle ≠ k → handles₁.find? k = handles.find? k := by
  obtain ⟨parsed, hparse, hbody⟩ := hcm.note
  obtain ⟨result, chunk, hresult, hholds⟩ := ingest_ready henv hembed hs client
    (cm.inbound receivedAt) hcm.community rfl hparse hbody hnew
  generalize hw₁ : ((DomainService.ingest ⟨some client⟩ (cm.inbound receivedAt)).exec
    (kind.backend engine) env w).2 = w₁ at hholds
  have hexec : (DomainService.ingest ⟨some client⟩ (cm.inbound receivedAt)).exec
      (kind.backend engine) env w = (.ok result, w₁) := Prod.ext hresult hw₁
  have hmem := hfinds.ready w₁.rows _ chunk hholds.mem hholds.owner hholds.ready
  have honly : ∀ c ∈ chunksForSource w₁.rows result.sourceMessageId, c = chunk := fun c hc =>
    hholds.only c (hfinds.sound _ _ c hc).1 (hfinds.sound _ _ c hc).2
  have hhandle : handleOf cm.externalMessageId chunk = cm.handle := by
    rw [handleOf, hholds.place, CorpusMessage.handle, String.append_assoc]
    rfl
  refine ⟨setHandles cm.externalMessageId (chunksForSource w₁.rows result.sourceMessageId) handles,
    w₁, ?_, rfl, ⟨chunk.chunkId, ?_, ?_⟩, fun k hk => ?_⟩
  · exact ingestMessages_embedded hexec (List.ne_nil_of_mem hmem)
  · rw [find?_setHandles hmem honly, if_pos hhandle]
  · obtain ⟨s, hsm, hid, hkey, hcommunity, htext⟩ := hholds.row
    refine ⟨s, hsm, chunk, hholds.mem, hkey, hcommunity, htext, hholds.owner.trans hid.symm,
      hholds.community, ?_, rfl⟩
    rw [hholds.text]
    exact congrArg (Option.map ParsedNote.body) hparse
  · rw [find?_setHandles hmem honly, if_neg (hhandle ▸ hk)]

/-- The whole corpus : the handle of a message resolves to its own chunk, unless a later message
has its external id. -/
theorem ingestMessages_resolves (henv : env.Reliable) (hembed : env.EmbedsEach)
    (hfinds : FindsChunks chunksForSource) (client : EmbeddingClient) (reprStr : String → String)
    (receivedAt : DateTime) (corpus : List CorpusMessage) (hcorpus : ∀ cm ∈ corpus, cm.Ingestible)
    (hdistinct : (corpus.map CorpusMessage.messageKey).Nodup) (hs : Sound env w)
    (hnew : ∀ cm ∈ corpus, w.rows.sourceForKey cm.messageKey = none) (handles : Handles) :
    ∃ (handles' : Handles) (w' : World (kind.backend engine).State),
      ingestMessages (kind.backend engine) env chunksForSource client reprStr receivedAt corpus
        handles w = (.ok handles', w') ∧
      Tables.Evolves (fun _ => False) w.rows w'.rows ∧
      (∀ k, (∀ cm ∈ corpus, cm.handle ≠ k) → handles'.find? k = handles.find? k) ∧
      ∀ cm, IsLast corpus cm → handles'.Resolves w'.rows cm := by
  induction corpus generalizing w handles with
  | nil =>
    refine ⟨handles, w, rfl, .refl _, fun _ _ => rfl, ?_⟩
    rintro cm ⟨before, after, h, -⟩
    simp at h
  | cons cm corpus ih =>
    obtain ⟨hkey, hdistinct⟩ := List.nodup_cons.mp hdistinct
    have hfirst := hnew cm List.mem_cons_self
    obtain ⟨handles₁, w₁, hstep, rfl, hresolves, hothers⟩ := ingestMessages_cons henv hembed hfinds hs
      client reprStr receivedAt (hcorpus cm List.mem_cons_self) hfirst corpus handles
    obtain ⟨handles', w', hrest, hevolves, hkept, hlast⟩ := ih
      (fun d hd => hcorpus d (List.mem_cons_of_mem _ hd)) hdistinct
      (Operation.run_spec hs (.ingest ⟨some client⟩ (cm.inbound receivedAt))).1
      (fun d hd => sourceForKey_ingest hs _ (cm.inbound receivedAt) hfirst
        (fun he => hkey (List.mem_map.mpr ⟨d, hd, he⟩)) (hnew d (List.mem_cons_of_mem _ hd)))
      handles₁
    refine ⟨handles', w', hstep.trans hrest, (evolves_ingest hs _ _).trans hevolves,
      fun k hk => ?_, ?_⟩
    · rw [hkept k fun d hd => hk d (List.mem_cons_of_mem _ hd), hothers k (hk cm List.mem_cons_self)]
    · rintro d ⟨before, after, hsplit, hlater⟩
      cases before with
      | nil =>
        -- the handle set for this message is set by no later one
        obtain ⟨rfl, rfl⟩ := List.cons.inj hsplit
        obtain ⟨id, hfound, hown⟩ := hresolves
        refine ⟨id, ?_, hevolves.ownChunk hown⟩
        rw [hkept _ fun e he heq => hlater e he (CorpusMessage.handle_inj.mp heq), hfound]
      | cons b before =>
        exact hlast d ⟨before, after, (List.cons.inj hsplit).2, hlater⟩

/-- The expected handles of the query are those of messages of its community, each the last one
with its external id. -/
def GoldQuery.NamesLast (gq : GoldQuery) (corpus : List CorpusMessage) : Prop :=
  ∀ handle ∈ gq.expectedHandles, ∃ cm, IsLast corpus cm ∧ cm.communityId = gq.communityId ∧
    handle = cm.handle

/-- The chunk of the id is in the community. -/
def Tables.ChunkIn (T : Tables) (community id : String) : Prop :=
  ∃ c ∈ T.eventChunks, c.chunkId = id ∧ c.communityId = community

/-- Handles that resolve to chunks of a community. -/
theorem Harness.resolve_in {harness : Harness} {T : Tables} {community : String}
    {handles : List String} (h : ∀ handle ∈ handles, ∃ id,
      harness.handlesToChunkIds.find? handle = some (handle, id) ∧ T.ChunkIn community id) :
    ∃ ids, harness.resolve handles = .ok ids ∧ ∀ id ∈ ids, T.ChunkIn community id := by
  induction handles with
  | nil => exact ⟨[], rfl, nofun⟩
  | cons handle handles ih =>
    obtain ⟨id, hfound, hin⟩ := h handle List.mem_cons_self
    obtain ⟨ids, hids, hall⟩ := ih fun handle' hmem => h handle' (List.mem_cons_of_mem _ hmem)
    refine ⟨id :: ids, ?_, List.forall_mem_cons.mpr ⟨hin, hall⟩⟩
    rw [resolve, hfound]
    change (resolve harness handles >>= fun ids => pure (id :: ids)) = _
    rw [hids]
    rfl

theorem Harness.yields_resolved (harness : Harness) (B : Backend) (gq : GoldQuery) :
    (harness.runQuery gq).Yields B fun row =>
      harness.resolve gq.expectedHandles = .ok row.expectedChunkIds := by
  unfold runQuery
  refine (Proc.Yields.ofExcept _).bind fun expectedIds hids => ?_
  refine (Proc.Yields.any _).bind fun queryEmbedding _ => ?_
  refine (Proc.Yields.any _).bind fun dense _ => ?_
  refine (Proc.Yields.any _).bind fun sparse _ => ?_
  exact (Proc.Yields.any _).bind fun fused _ => .pure hids

/-- From a store that has none of its messages, a corpus of notes with bodies is ingested in full,
and the handle of every message that is the last one with its external id resolves to its own chunk.
So every gold query that names such messages of its community resolves to chunks of the
community, in every run of the harness over the map. -/
theorem fixtures_resolve (kind : StoreKind) (engine : SearchEngine) (env : Env)
    (henv : env.Reliable) (hembed : env.EmbedsEach)
    (chunksForSource : Tables → String → List EventChunk) (hfinds : FindsChunks chunksForSource)
    (client : EmbeddingClient) (reprStr : String → String) (receivedAt : DateTime)
    (corpus : List CorpusMessage) (hcorpus : ∀ cm ∈ corpus, cm.Ingestible)
    (hdistinct : (corpus.map CorpusMessage.messageKey).Nodup)
    (w : World (kind.backend engine).State) (hs : Sound env w)
    (hnew : ∀ cm ∈ corpus, w.rows.sourceForKey cm.messageKey = none) :
    ∃ (handles : Handles) (w' : World (kind.backend engine).State),
      ingestFixtureCorpus (kind.backend engine) env chunksForSource client reprStr receivedAt corpus
        w = (.ok handles, w') ∧
      (∀ cm, IsLast corpus cm → handles.Resolves w'.rows cm) ∧
      ∀ harness : Harness, harness.handlesToChunkIds = handles →
        (∀ gq : GoldQuery, gq.NamesLast corpus →
          ∃ ids, harness.resolve gq.expectedHandles = .ok ids) ∧
        ∀ (gold : List GoldQuery) (B : Backend) (env' : Env) (v v' : World B.State)
          (report : HarnessReport),
          (harness.runHarness gold).exec B env' v = (.ok report, v') →
          List.Forall₂ (fun gq row => gq.NamesLast corpus →
            ∀ id ∈ row.expectedChunkIds, w'.rows.ChunkIn gq.communityId id) gold report.perQuery := by
  obtain ⟨handles, w', hrun, -, -, hlast⟩ := ingestMessages_resolves henv hembed hfinds client
    reprStr receivedAt corpus hcorpus hdistinct hs hnew .empty
  refine ⟨handles, w', hrun, hlast, fun harness hharness => ?_⟩
  have hnamed : ∀ gq : GoldQuery, gq.NamesLast corpus →
      ∃ ids, harness.resolve gq.expectedHandles = .ok ids ∧
        ∀ id ∈ ids, w'.rows.ChunkIn gq.communityId id := by
    refine fun gq hgq => Harness.resolve_in fun handle hhandle => ?_
    obtain ⟨cm, hcm, hcommunity, rfl⟩ := hgq handle hhandle
    obtain ⟨id, hfound, s, -, c, hc, -, -, -, -, hchunk, -, hid⟩ := hlast cm hcm
    exact ⟨id, hharness ▸ hfound, c, hc, hid, hchunk.trans hcommunity⟩
  refine ⟨fun gq hgq => ?_, fun gold B env' v v' report hreport => ?_⟩
  · obtain ⟨ids, hids, -⟩ := hnamed gq hgq
    exact ⟨ids, hids⟩
  · obtain ⟨hall, -⟩ :=
      Harness.yields_runHarness (harness.yields_resolved B) gold env' v report v' hreport
    refine hall.imp fun gq row hrow hgq => ?_
    obtain ⟨ids, hids, hin⟩ := hnamed gq hgq
    cases hids.symm.trans hrow
    exact hin

end Fixtures

/-- The mock run over a corpus. -/
def plainFixtures (corpus : List CorpusMessage) :
    Except Exn Handles × World (StoreKind.mock.backend .plain).State :=
  ingestFixtureCorpus (StoreKind.mock.backend .plain) .steady mockChunksForSource ⟨"model", 1⟩
    Harness.plain.reprStr (Env.steady.now 0) corpus (World.initial .mock .plain)

/-- Two notes of two communities. -/
def twoCommunities : List CorpusMessage :=
  [⟨"1", "red", "user", "2026-05-09\nwalk"⟩, ⟨"2", "blue", "user", "2026-05-09\nswim"⟩]

/-- With distinct external ids, both handles resolve. -/
theorem fixtures_resolve_two : ∃ handles w', plainFixtures twoCommunities = (.ok handles, w') ∧
    ∀ cm ∈ twoCommunities, handles.Resolves w'.rows cm := by
  obtain ⟨handles, w', hrun, hlast, -⟩ := fixtures_resolve .mock .plain .steady Env.steady_reliable
    (fun n texts => ⟨_, rfl, List.length_map _⟩) mockChunksForSource findsChunks_mock ⟨"model", 1⟩
    Harness.plain.reprStr (Env.steady.now 0) twoCommunities
    (fun cm hcm => by
      rcases List.mem_cons.mp hcm with rfl | hcm
      · exact ⟨by decide, ⟨⟨2026, 5, 9, by decide⟩, "walk", "2026-05-09"⟩, by decide +kernel, by decide⟩
      · obtain rfl := List.mem_singleton.mp hcm
        exact ⟨by decide, ⟨⟨2026, 5, 9, by decide⟩, "swim", "2026-05-09"⟩, by decide +kernel, by decide⟩)
    (by decide) (World.initial .mock .plain) (sound_initial .mock .plain .steady)
    fun cm _ => Tables.sourceForKey_eq_none.mpr fun _ h => absurd h Table.not_mem_empty
  refine ⟨handles, w', hrun, fun cm hcm => hlast cm ?_⟩
  obtain ⟨before, after, hsplit⟩ := List.append_of_mem hcm
  refine ⟨before, after, hsplit, fun later hlater he => ?_⟩
  have hids : (twoCommunities.map CorpusMessage.externalMessageId).Nodup := by decide
  rw [hsplit, List.map_append, List.map_cons] at hids
  have hnot := (List.nodup_cons.mp (List.nodup_append.mp hids).2.1).1
  exact hnot (List.mem_map.mpr ⟨later, hlater, he⟩)

/-- Two notes of two communities with one external id. -/
def takenOver : List CorpusMessage :=
  [⟨"1", "red", "user", "2026-05-09\nwalk"⟩, ⟨"1", "blue", "user", "2026-05-09\nswim"⟩]

/-- A note of a date alone. -/
def bodiless : List CorpusMessage := [⟨"1", "red", "user", "2026-05-09"⟩]

/-- The chunk that a handle resolves to after a run. -/
def resolvedChunk (corpus : List CorpusMessage) (handle : String) : Option EventChunk :=
  (plainFixtures corpus).1.toOption.bind fun handles => (handles.find? handle).bind fun entry =>
    (plainFixtures corpus).2.rows.eventChunks.find? entry.2

/-- The handle of the first community's message resolves to the chunk of the second's, and a note
without a body ends the ingest. -/
theorem fixtures_taken_over :
    ((∀ cm ∈ takenOver, (parseNote cm.rawText).isSome) ∧
      (takenOver.map CorpusMessage.messageKey).Nodup ∧
      ∃ handles, (plainFixtures takenOver).1 = .ok handles ∧
        (¬ ∀ cm ∈ takenOver, handles.Resolves (plainFixtures takenOver).2.rows cm) ∧
        ∃ id, { Harness.plain with handlesToChunkIds := handles }.resolve ["1#0"] = .ok [id] ∧
          ¬ (plainFixtures takenOver).2.rows.ChunkIn "red" id) ∧
    (∀ cm ∈ bodiless, (parseNote cm.rawText).isSome) ∧
      (bodiless.map CorpusMessage.messageKey).Nodup ∧ (plainFixtures bodiless).1.toOption = none := by
  refine ⟨⟨by decide +kernel, by decide, ?_⟩, by decide +kernel, by decide, by decide +kernel⟩
  have hblue : (resolvedChunk takenOver "1#0").map EventChunk.communityId = some "blue" := by
    decide +kernel
  obtain ⟨chunk, hchunk, hcommunity⟩ := Option.map_eq_some_iff.mp hblue
  obtain ⟨handles, hhandles, hchunk⟩ := Option.bind_eq_some_iff.mp hchunk
  obtain ⟨⟨handle, id⟩, hentry, hchunk⟩ := Option.bind_eq_some_iff.mp hchunk
  have hother : ¬ (plainFixtures takenOver).2.rows.ChunkIn "red" id := by
    rintro ⟨c, hc, hid, hred⟩
    obtain ⟨hmem, hkey⟩ := Table.find?_eq_some_iff.mp hchunk
    obtain rfl := Table.eq_of_key hc hmem (hid.trans hkey.symm)
    rw [hcommunity] at hred
    exact absurd hred (by decide)
  refine ⟨handles, ok_of_toOption hhandles, fun hall => ?_, id, ?_, hother⟩
  · obtain ⟨id', hfound, s, -, c, hc, -, -, -, -, hred, -, hid⟩ :=
      hall ⟨"1", "red", "user", "2026-05-09\nwalk"⟩ List.mem_cons_self
    have hsame : some (handle, id) = some (_, id') := hentry.symm.trans hfound
    obtain rfl : id = id' := (Prod.mk.inj (Option.some.inj hsame)).2
    exact hother ⟨c, hc, hid, hred⟩
  · rw [Harness.resolve]
    simp only [hentry]
    rfl

end DiaryMemory
