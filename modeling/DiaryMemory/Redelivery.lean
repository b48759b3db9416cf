import DiaryMemory.Once

/-!
# Redeliveries of an interrupted ingest

An ingest commits its source row before the note and the chunk, and a redelivery of the same
message state only rebuilds a result from the rows it finds. So a redelivery completes nothing :
the note and the chunk end as an ingest that nothing interrupts leaves them when no call raised
that they depend on (`RepoCall.Harmless`), and the redelivery reports the note when its lookup
comes after the note was saved (`redelivered_run`).

Where the lookup comes earlier, or the note was never saved, a well-formed note is reported as
invalid input (`redelivery_reports_invalid`).
-/

namespace DiaryMemory

variable {kind : StoreKind} {engine : SearchEngine} {env : Env}

/-! ## The rows of one source row -/

namespace Tables

/-- The note and the chunks of a source row. -/
structure Owns (T : Tables) (id : String) (note : Note) (chunks : List EventChunk) : Prop where
  note : ∀ n, n ∈ T.notes ∧ n.sourceMessageId = id ↔ n = note
  chunk : ∀ c, c ∈ T.eventChunks ∧ c.sourceMessageId = id ↔ c ∈ chunks

namespace Owns

variable {T T' : Tables} {id : String} {note : Note} {chunks : List EventChunk}

theorem congr (h : T.Owns id note chunks) (hnotes : T'.notes = T.notes)
    (hchunks : T'.eventChunks = T.eventChunks) : T'.Owns id note chunks where
  note n := by rw [hnotes, h.note]
  chunk c := by rw [hchunks, h.chunk]

/-- A note with its chunks is added to a source row that has none. -/
theorem added (hnotes : ∀ n ∈ T.notes, n.sourceMessageId ≠ id ∧ n.noteId ≠ note.noteId)
    (hchunks : ∀ c ∈ T.eventChunks, c.sourceMessageId ≠ id) (hid : note.sourceMessageId = id)
    (hlength : chunks.length ≤ 1) (hnew : ∀ c ∈ chunks, c.sourceMessageId = id ∧
      ∀ x ∈ T.eventChunks, x.chunkId ≠ c.chunkId) :
    ((T.putNote note).putChunks chunks).Owns id note chunks where
  note n := by
    have hmem : n ∈ ((T.putNote note).putChunks chunks).notes ↔ n = note ∨ n ∈ T.notes :=
      Table.mem_put_of_fresh fun y hy => (hnotes y hy).2
    rw [hmem]
    constructor
    · rintro ⟨rfl | hn, he⟩
      · rfl
      · exact absurd he (hnotes n hn).1
    · rintro rfl
      exact ⟨.inl rfl, hid⟩
  chunk c := by
    have hnodup : (chunks.map EventChunk.chunkId).Nodup := by
      match chunks, hlength with
      | [], _ => exact List.nodup_nil
      | [c], _ => exact List.nodup_singleton _
    have hmem : c ∈ ((T.putNote note).putChunks chunks).eventChunks ↔
        c ∈ chunks ∨ c ∈ T.eventChunks :=
      Table.mem_putAll_of_fresh hnodup fun d hd y hy => (hnew d hd).2 y hy
    rw [hmem]
    constructor
    · rintro ⟨hc | hc, he⟩
      · exact hc
      · exact absurd he (hchunks c hc)
    · exact fun hc => ⟨.inl hc, (hnew c hc).1⟩

/-- Flipping other rows. -/
theorem flip (h : T.Owns id note chunks) {state : LifecycleState} {priorNote : Option Note}
    {priorChunk : Option EventChunk} (hnote : ∀ n ∈ priorNote, n.noteId ≠ note.noteId)
    (hchunk : ∀ d ∈ priorChunk, ∀ c ∈ chunks, d.chunkId ≠ c.chunkId) :
    (T.flip state priorNote priorChunk).Owns id note chunks where
  note n := by
    have hother : priorNote.map Note.noteId ≠ some note.noteId := fun he => by
      obtain ⟨m, hm, hid⟩ := Option.map_eq_some_iff.mp he
      exact hnote m hm hid
    rw [mem_flip_notes, ← h.note]
    constructor
    · rintro ⟨⟨m, hm, rfl⟩, hid⟩
      have hsource : m.sourceMessageId = id := by
        split at hid <;> exact hid
      obtain rfl := (h.note m).mp ⟨hm, hsource⟩
      rw [if_neg hother]
      exact ⟨hm, hsource⟩
    · intro hn
      obtain rfl := (h.note n).mp hn
      exact ⟨⟨n, hn.1, (if_neg hother).symm⟩, hn.2⟩
  chunk c := by
    have hother : ∀ c ∈ chunks, priorChunk.map EventChunk.chunkId ≠ some c.chunkId :=
      fun c hc he => by
        obtain ⟨d, hd, hid⟩ := Option.map_eq_some_iff.mp he
        exact hchunk d hd c hc hid
    rw [mem_flip_chunks, ← h.chunk]
    constructor
    · rintro ⟨⟨d, hd, rfl⟩, hid⟩
      have hsource : d.sourceMessageId = id := by
        split at hid <;> exact hid
      rw [if_neg (hother d ((h.chunk d).mp ⟨hd, hsource⟩))]
      exact ⟨hd, hsource⟩
    · intro hc
      exact ⟨⟨c, hc.1, (if_neg (hother c ((h.chunk c).mp hc))).symm⟩, hc.2⟩

/-- The one chunk is marked. -/
theorem setStatus {chunk : EventChunk} (h : T.Owns id note [chunk]) (status : EmbeddingStatus) :
    (T.setStatus chunk.chunkId status).Owns id note [chunk.withStatus status] where
  note := h.note
  chunk c := by
    obtain ⟨hmem, hid⟩ := (h.chunk chunk).mpr (List.mem_singleton_self chunk)
    rw [mem_setStatus, List.mem_singleton]
    constructor
    · rintro ⟨⟨d, hd, rfl⟩, hsource⟩
      have hdsource : d.sourceMessageId = id := by
        split at hsource <;> exact hsource
      obtain rfl := List.mem_singleton.mp ((h.chunk d).mp ⟨hd, hdsource⟩)
      rw [if_pos rfl]
    · rintro rfl
      exact ⟨⟨chunk, hmem, (if_pos rfl).symm⟩, hid⟩

end Owns

end Tables

/-! ## What an ingest leaves -/

/-- The status an answer of the embedding client leaves on a new chunk. -/
def statusAfter : Except Exn (List Vec) → EmbeddingStatus
  | .error _ => .failed
  | .ok [_] => .ready
  | .ok _ => .pending

/-- The status an ingest leaves on a new chunk. -/
def Env.Settles (env : Env) (client : Option EmbeddingClient) (text : String)
    (status : EmbeddingStatus) : Prop :=
  match client with
  | none => status = .pending
  | some _ => ∃ n, status = statusAfter (env.embed n [text])

/-- The note of a parsed message and its chunk, as an ingest that started on the rows `T₀` and
that nothing interrupted leaves them. -/
def Persisted (env : Env) (service : DomainService) (message : InboundMessage) (parsed : ParsedNote)
    (T₀ T : Tables) : Prop :=
  ∃ source now noteId chunkId status,
    let row := DomainService.sourceRow message source now
    let v := revision (T₀.putSource row) message source now parsed noteId chunkId
    row ∈ T.sourceMessages ∧ T.Owns source v.note (v.chunks.map (EventChunk.withStatus status)) ∧
      (parsed.body ≠ "" → env.Settles service.embeddingClient parsed.body status)

/-- The note and the chunk do not depend on the call : it belongs to another delivery, or comes
after both are settled. -/
def RepoCall.Harmless (service : DomainService) (parsed : ParsedNote) : RepoCall → Prop
  | .getOrCreateSourceMessage _ | .getNoteBySourceMessageId _ | .countEventChunksForSource _
  | .saveIndexingDeadLetter _ => True
  | .saveEventChunks _ => parsed.body = ""
  | .markNote .. | .markChunk .. => service.embeddingClient = none ∨ parsed.body = ""
  | _ => False

section Ingested

variable {T : Tables} {message : InboundMessage} {source : String} {now : DateTime}
  {parsed : ParsedNote} {noteId chunkId : String} {v : Revision}

/-- A new revision is what its source row owns, whatever was flipped of the one it replaces. -/
theorem Revision.owns (hv : v = revision T message source now parsed noteId chunkId)
    (hu : T.Unused noteId chunkId) (hnotes : ∀ n ∈ T.notes, n.sourceMessageId ≠ source)
    (hchunks : ∀ c ∈ T.eventChunks, c.sourceMessageId ≠ source) {priorNote : Option Note}
    {priorChunk : Option EventChunk} (hn : ∀ n ∈ priorNote, n ∈ v.priorNote)
    (hc : ∀ c ∈ priorChunk, c ∈ v.priorChunk) :
    (((T.putNote v.note).putChunks v.chunks).flip .superseded priorNote priorChunk).Owns source
      v.note v.chunks := by
  have hnoteId : v.note.noteId = noteId := by rw [hv]; rfl
  have hmem : ∀ c ∈ v.chunks, c.sourceMessageId = source ∧ c.chunkId = chunkId := by
    intro c hcm
    rw [((mem_chunks hv).mp hcm).2]
    refine ⟨?_, rfl⟩
    rw [hv]
    rfl
  refine (Tables.Owns.added (fun n hn => ⟨hnotes n hn, hnoteId ▸ hu.1 n hn⟩) hchunks ?_
    (length_chunks hv) fun c hcm => ⟨(hmem c hcm).1, (hmem c hcm).2 ▸ hu.2⟩).flip
    (fun n hnm => ?_) fun d hd c hcm => ?_
  · rw [hv]
    rfl
  · have hprior := hn n hnm
    rw [hv] at hprior
    exact hnoteId ▸ hu.1 n (Tables.mem_activeNotesFor.mp (Tables.mem_of_getActiveNote hprior)).1
  · exact (hmem c hcm).2 ▸ hu.2 d (priorChunk_row hv (hc d hd)).1

theorem Revision.chunks_pending (hv : v = revision T message source now parsed noteId chunkId) :
    v.chunks.map (EventChunk.withStatus .pending) = v.chunks := by
  rw [hv]
  simp only [revision, newRevision]
  split <;> rfl

/-- Some of the flips were made. -/
theorem effects_of_flipCalls {state : LifecycleState} {community : String} {note : Option Note}
    {chunk : Option EventChunk} {done rest : List RepoCall} {c : RepoCall}
    (h : flipCalls state community note chunk = done ++ c :: rest) (T : Tables) :
    ∃ note' chunk', RepoCall.effects done T = T.flip state note' chunk' ∧
      (∀ n ∈ note', n ∈ note) ∧ ∀ d ∈ chunk', d ∈ chunk := by
  match done, chunk, note with
  | [], _, _ => exact ⟨none, none, rfl, nofun, nofun⟩
  | [d], some chunk, note =>
    obtain ⟨rfl, -⟩ := List.cons.inj h
    exact ⟨none, some chunk, rfl, nofun, fun _ hd => hd⟩
  | [d], none, some n => simp [flipCalls] at h
  | [_], none, none => simp [flipCalls] at h
  | _ :: _ :: _, chunk, note =>
    have hlength := congrArg List.length h
    cases note <;> cases chunk <;> simp [flipCalls] at hlength

/-- Where a list of calls stopped at none of the first ones. -/
theorem append_of_not_mem {α : Type} {first later done rest : List α} {c : α}
    (h : first ++ later = done ++ c :: rest) (hc : c ∉ first) :
    ∃ more, done = first ++ more ∧ later = more ++ c :: rest := by
  rcases List.append_eq_append_iff.mp h with ⟨more, hdone, hlater⟩ | ⟨more, hfirst, hrest⟩
  · exact ⟨more, hdone, hlater⟩
  · cases more with
    | nil => exact ⟨[], by simpa using hfirst.symm, by simpa using hrest.symm⟩
    | cons d more =>
      obtain ⟨rfl, -⟩ := List.cons.inj hrest
      exact absurd (hfirst ▸ List.mem_append_right _ List.mem_cons_self) hc

/-- A revision that stopped at a harmless call has its note and its chunk. -/
theorem Revision.owns_of_stopped (hv : v = revision T message source now parsed noteId chunkId)
    (hu : T.Unused noteId chunkId) (hnotes : ∀ n ∈ T.notes, n.sourceMessageId ≠ source)
    (hchunks : ∀ c ∈ T.eventChunks, c.sourceMessageId ≠ source) {service : DomainService}
    {done rest : List RepoCall} {c : RepoCall} (hcalls : v.calls message = done ++ c :: rest)
    (hc : c.Harmless service parsed) :
    (RepoCall.effects done T).Owns source v.note v.chunks ∧
      (RepoCall.effects done T).sourceMessages = T.sourceMessages ∧
      (service.embeddingClient = none ∨ parsed.body = "") := by
  set reads : List RepoCall := .getActiveNoteForExternalMessage message.externalChatId
    message.externalMessageId message.communityId ::
      v.priorNote.toList.map fun n => .getActiveChunkForNote n.noteId message.communityId
  have hsplit : (reads ++ [.saveNote v.note]) ++ .saveEventChunks v.chunks ::
      flipCalls .superseded message.communityId v.priorNote v.priorChunk = done ++ c :: rest := by
    rw [← hcalls]
    simp [reads, calls, writes]
  have hneeded : c ∉ reads ++ [.saveNote v.note] := by
    simp only [reads, List.mem_append, List.mem_cons, List.mem_map, List.not_mem_nil, or_false]
    rintro ((rfl | ⟨n, -, rfl⟩) | rfl) <;> exact hc
  obtain ⟨more, rfl, hmore⟩ := append_of_not_mem hsplit hneeded
  have hreads : RepoCall.effects (reads ++ [.saveNote v.note]) T = T.putNote v.note := by
    simp only [reads]
    cases v.priorNote <;> rfl
  rw [RepoCall.effects_append, hreads]
  cases more with
  | nil =>
    obtain ⟨rfl, -⟩ := List.cons.inj hmore
    have hbody : parsed.body = "" := hc
    have hnone : v.chunks = [] := by
      rw [hv]
      simp only [revision, newRevision, if_pos hbody]
    have howns : (((T.putNote v.note).putChunks v.chunks).flip .superseded none none).Owns source
        v.note v.chunks := owns hv hu hnotes hchunks (by simp) (by simp)
    rw [hnone] at howns ⊢
    exact ⟨howns, rfl, .inr hbody⟩
  | cons d more =>
    obtain ⟨rfl, hflips⟩ := List.cons.inj hmore
    obtain ⟨note', chunk', heffects, hn, hd⟩ :=
      effects_of_flipCalls hflips ((T.putNote v.note).putChunks v.chunks)
    have heq : RepoCall.effects (.saveEventChunks v.chunks :: more) (T.putNote v.note) =
        ((T.putNote v.note).putChunks v.chunks).flip .superseded note' chunk' := heffects
    rw [heq]
    refine ⟨owns hv hu hnotes hchunks hn hd, Tables.flip_sourceMessages, ?_⟩
    · have hmem : c ∈ flipCalls .superseded message.communityId v.priorNote v.priorChunk := by
        rw [hflips]
        exact List.mem_append_right _ List.mem_cons_self
      simp only [flipCalls, List.mem_append, List.mem_map] at hmem
      rcases hmem with ⟨_, -, rfl⟩ | ⟨_, -, rfl⟩ <;> exact hc

end Ingested

section Ended

variable {service : DomainService} {message : InboundMessage} {parsed : ParsedNote}
  {w w' : World (kind.backend engine).State}

/-- The call that raised is among the failures. -/
theorem Completes.failed {α : Type} {cs : List RepoCall} {V : α → Prop} {e : Exn}
    (h : Completes env cs w V (.error e) w') :
    ∃ c ∈ cs, c ∈ w'.failures.drop w.failures.length := by
  obtain ⟨done, c, rest, w₁, rfl, hpath, hraised⟩ := h
  refine ⟨c, List.mem_append_right _ List.mem_cons_self, ?_⟩
  rw [hraised.failures, hpath.failures, List.drop_left]
  exact List.mem_singleton_self c

/-- An embedding step in which only harmless calls raised leaves the status of its answer. -/
theorem EmbedOutcome.owns {client : EmbeddingClient} {chunk : EventChunk}
    {answer : Except Exn (List Vec)} {r : Except Exn Unit} {id : String} {note : Note}
    (h : EmbedOutcome env client chunk answer w r w') (ho : w.rows.Owns id note [chunk])
    (hpending : chunk.embeddingStatus = .pending)
    (hharmless : ∀ c ∈ w'.failures.drop w.failures.length, c.Harmless service parsed) :
    w'.rows.Owns id note [chunk.withStatus (statusAfter answer)] := by
  cases h with
  | @mismatch vectors _ _ hanswer hlength hl =>
    have hstatus : statusAfter answer = chunk.embeddingStatus := by
      rw [hanswer, hpending]
      match vectors, hlength with
      | [], _ => rfl
      | _ :: _ :: _, _ => rfl
    rw [hstatus, hl.rows]
    exact ho
  | stored hanswer hr hm hc =>
    rw [hanswer]
    cases r with
    | ok u =>
      rw [hc.2.rows]
      exact (ho.congr rfl rfl : (w.rows.putRecords _).Owns id note [chunk]).setStatus .ready
    | error e =>
      obtain ⟨c, hcs, hfailed⟩ := hc.failed
      have hbad := hharmless c hfailed
      simp only [List.mem_cons, List.not_mem_nil, or_false] at hcs
      rcases hcs with rfl | rfl <;> exact hbad.elim
  | unmarked hanswer hc =>
    obtain ⟨c, hcs, hfailed⟩ := hc.failed
    have hbad := hharmless c hfailed
    rw [List.mem_singleton.mp hcs] at hbad
    exact hbad.elim
  | @failed exc d w₁ _ hanswer hd hp hdead =>
    rw [hanswer]
    have hmarked : w₁.rows.Owns id note [chunk.withStatus .failed] := by
      rw [hp.rows]
      exact ho.setStatus .failed
    rcases hdead with hdead | ⟨e, hdead⟩
    · rw [hdead.rows]
      exact hmarked.congr rfl rfl
    · rw [hdead.rows]
      exact hmarked

/-- An ingest of a new note in which only harmless calls raised leaves the note and its chunk,
and reports the note. -/
theorem IngestOutcome.persisted {r : Except Exn IngestResult} (hT : w.rows.Linked)
    (h : IngestOutcome env service message w r w')
    (hnone : w.rows.sourceForKey message.messageKey = none) (hroute : message.route = .note)
    (hparse : parseNote message.payload = some parsed)
    (hstored : w'.rows.sourceForKey message.messageKey ≠ none)
    (hharmless : ∀ c ∈ w'.failures.drop w.failures.length, c.Harmless service parsed) :
    Persisted env service message parsed w.rows w'.rows ∧
      ∀ result, r = .ok result → result.fallback = .none ∧
        result.noteDate = some parsed.noteDate := by
  have hdraft : message.route ≠ .draft := by
    rw [hroute]
    nofun
  cases h with
  | refused hl hr =>
    rw [hr.rows, hl.rows] at hstored
    exact absurd hnone hstored
  | replayed hexisting =>
    rw [hnone] at hexisting
    cases hexisting
  | @fresh source now _ w₁ _ _ hunused hp ho =>
    have hrows := hp.rows_added hnone
    obtain ⟨hnotes, hchunks⟩ : (∀ n ∈ w₁.rows.notes, n.sourceMessageId ≠ source) ∧
        ∀ c ∈ w₁.rows.eventChunks, c.sourceMessageId ≠ source := by
      rw [hrows]
      exact hT.underived hunused
    rw [← hp.failures] at hharmless
    have hrow : DomainService.sourceRow message source now ∈ w₁.rows.sourceMessages := by
      rw [hrows]
      exact Table.mem_put_self
    cases ho with
    | removed hroute' => exact absurd hroute' hdraft
    | unparsed _ hparse' =>
      rw [hparse] at hparse'
      cases hparse'
    | @stopped parsed' noteId chunkId e _ _ hparse' hids hu hc =>
      obtain rfl : parsed = parsed' := Option.some.inj (hparse.symm.trans hparse')
      obtain ⟨done, c, rest, w₂, hcalls, hpath, hraised⟩ := hc
      have hfailed : c ∈ w'.failures.drop w₁.failures.length := by
        rw [hraised.failures, hpath.failures, List.drop_left]
        exact List.mem_singleton_self c
      obtain ⟨howns, hsources, hwithout⟩ :=
        Revision.owns_of_stopped rfl hu hnotes hchunks hcalls (hharmless c hfailed)
      rw [← hpath.rows, ← hraised.rows] at howns hsources
      refine ⟨⟨source, now, noteId, chunkId, .pending, hsources ▸ hrow, ?_, fun hbody => ?_⟩, nofun⟩
      · rw [← hrows, Revision.chunks_pending rfl]
        exact howns
      · rw [hwithout.resolve_right hbody]
        rfl
    | @saved parsed' noteId chunkId r₁ w₂ _ _ hparse' hids hu hpath hembed =>
      obtain rfl : parsed = parsed' := Option.some.inj (hparse.symm.trans hparse')
      have howns := Revision.owns (v := revision w₁.rows message source now parsed noteId chunkId)
        rfl hu hnotes hchunks (fun _ hn => hn) fun _ hc => hc
      rw [← Revision.save, ← Revision.effects_calls, ← hpath.rows] at howns
      have hsources : DomainService.sourceRow message source now ∈ w₂.rows.sourceMessages := by
        rw [hpath.rows, Revision.effects_calls, Revision.save_sourceMessages]
        exact hrow
      refine ⟨?_, fun result hr => ?_⟩
      · cases hembed with
        | skipped hskip =>
          refine ⟨source, now, noteId, chunkId, .pending, hsources, ?_, fun hbody => ?_⟩
          · rw [← hrows, Revision.chunks_pending rfl]
            exact howns
          · have hchunk : DomainService.newChunk _ chunkId _ ∈
                (revision w₁.rows message source now parsed noteId chunkId).chunks :=
              (Revision.mem_chunks rfl).mpr ⟨hbody, rfl⟩
            rcases hskip with hclient | hnil
            · rw [hclient]
              rfl
            · rw [hnil] at hchunk
              cases hchunk
        | @asked client chunk _ w₃ _ hclient hchunk ht ho =>
          have hmem := (Revision.mem_chunks rfl).mp (hchunk ▸ List.mem_singleton_self chunk)
          have hpending : chunk.embeddingStatus = .pending := by
            rw [hmem.2]
            rfl
          have htext : chunk.chunkText = parsed.body := by
            rw [hmem.2]
            rfl
          rw [← hpath.failures, ← ht.failures] at hharmless
          rw [hchunk, ← ht.rows] at howns
          refine ⟨source, now, noteId, chunkId, statusAfter (env.embed w₂.tick [chunk.chunkText]), ?_,
            ?_, fun _ => ?_⟩
          · rw [ho.restatused.sources, ht.rows]
            exact hsources
          · rw [← hrows, hchunk]
            exact ho.owns howns hpending hharmless
          · rw [hclient, ← htext]
            exact ⟨w₂.tick, rfl⟩
      · cases r₁ with
        | error e => cases hr
        | ok u =>
          cases hr
          exact ⟨rfl, rfl⟩

theorem Persisted.of_along {moment : ℕ → ℕ} {ids : Equiv.Perm ℕ} {T₀ T : Tables}
    (h : Persisted (env.along moment ids) service message parsed T₀ T) :
    Persisted env service message parsed T₀ T := by
  obtain ⟨source, now, noteId, chunkId, status, hrow, howns, hsettles⟩ := h
  refine ⟨source, now, noteId, chunkId, status, hrow, howns, fun hbody => ?_⟩
  have hs := hsettles hbody
  unfold Env.Settles at hs ⊢
  split at hs
  · exact hs
  · obtain ⟨n, hn⟩ := hs
    exact ⟨moment n, hn⟩

/-- A replay that found the note reports it. -/
theorem Decided.reports {ι : Type} {w₀ : World (kind.backend engine).State}
    {results : ι → Except Exn IngestResult} {i j : ι} {s : SourceMessage}
    (h : Decided env (fun _ => service) (fun _ => message) w₀ w results i s)
    (hlinked : w.rows.Linked) (hroute : message.route = .note)
    (hp : Persisted env service message parsed w₀.rows w.rows)
    (hlookup : ∀ e ∈ w.log.drop w₀.tick, ∀ id, e.call = .repo (.getNoteBySourceMessageId id) →
      e.raised = false → (e.before.getNoteBySourceMessageId id).isSome)
    (hj : j ≠ i) {result : IngestResult} (hr : results j = .ok result) :
    result.fallback = .none ∧ result.noteDate = some parsed.noteDate := by
  obtain ⟨source, now, noteId, chunkId, status, hrow, howns, -⟩ := hp
  obtain rfl : s = DomainService.sourceRow message source now :=
    hlinked.key_unique s h.source _ hrow h.key
  rcases h.others j hj with he | hend | ⟨note, hend, hlook⟩
  · rw [hr] at he
    cases he
  · rw [hr] at hend
    rcases hend with he | ⟨hdraft, -⟩
    · cases he
    · have hroute' : message.route = .draft := hdraft
      rw [hroute] at hroute'
      cases hroute'
  · obtain ⟨e, hmem, hcall, hraised, hfound⟩ := hlook.event
    have hsome := hlookup e hmem _ hcall hraised
    rw [hfound] at hsome
    obtain ⟨n, rfl⟩ := Option.isSome_iff_exists.mp hsome
    obtain ⟨n', hn', hsame⟩ := hlook.note n rfl
    have hsource : n.sourceMessageId = source := of_decide_eq_true (List.find?_some hfound :)
    have hn : n' = _ := (howns.note n').mp ⟨hn', hsame.sourceMessageId.trans hsource⟩
    have hdate : n.noteDate = parsed.noteDate := by
      have hsamedate : n'.noteDate = n.noteDate := (congrArg Note.noteDate hsame :)
      rw [← hsamedate, hn]
      rfl
    rw [hr] at hend
    rcases hend with he | ⟨count, he⟩
    · cases he
    · cases he
      exact ⟨rfl, congrArg some hdate⟩

end Ended

/-- Deliveries of one parsed note, the first of them interrupted or still in progress : where
only harmless calls raised, and every replay looked up the note after it was saved, the note and
its chunk end as an ingest that nothing interrupts leaves them, and every delivery that returns
reports the note. -/
theorem redelivered_run (kind : StoreKind) (engine : SearchEngine) (env : Env)
    (ops : List Operation) {ι : Type} [DecidableEq ι] (service : DomainService)
    (message : InboundMessage) (parsed : ParsedNote) (schedule : List ι)
    (results : ι → Except Exn IngestResult) :
    let w := runAll (kind.backend engine) env (World.initial kind engine) ops
    let pool := (deliveries (fun _ => service) (fun _ => message) w).run
      (serve (kind.backend engine) env) schedule
    message.route = .note → parseNote message.payload = some parsed →
    w.rows.sourceForKey message.messageKey = none → pool.Returned results →
    pool.state.rows.sourceForKey message.messageKey ≠ none →
    (∀ c ∈ pool.state.failures.drop w.failures.length, c.Harmless service parsed) →
    (∀ e ∈ pool.state.log.drop w.tick, ∀ id, e.call = .repo (.getNoteBySourceMessageId id) →
      e.raised = false → (e.before.getNoteBySourceMessageId id).isSome) →
    Persisted env service message parsed w.rows pool.state.rows ∧
      ∀ i result, results i = .ok result →
        result.fallback = .none ∧ result.noteDate = some parsed.noteDate := by
  intro w pool hroute hparse hnone hresults hstored hharmless hlookup
  have hs : Sound env w := sound_run env ops
  rcases deliveries_run hs hnone (fun _ => rfl) hresults with ⟨hstore, -⟩ | ⟨i, s, h⟩
  · have hrows : pool.state.rows = w.rows := by
      rw [World.rows, hstore, World.rows]
    rw [hrows] at hstored
    exact absurd hnone hstored
  · obtain ⟨v, moment, ids, hends⟩ := h.alone
    have hlinked : pool.state.rows.Linked := hends.rows ▸ hends.sound.linked
    obtain ⟨hpersisted, hreport⟩ := hends.outcome.persisted hs.linked hnone hroute hparse
      (hends.rows.symm ▸ hstored) fun c hc => hharmless c (hends.failed hc)
    rw [hends.rows] at hpersisted
    refine ⟨hpersisted.of_along, fun j result hr => ?_⟩
    by_cases hj : j = i
    · subst hj
      exact hreport result hr
    · exact h.reports hlinked hroute hpersisted.of_along hlookup hj hr

/-- Whether a lookup of a note found it. -/
def Event.finds (e : Event) : Bool :=
  match e.call with
  | .repo (.getNoteBySourceMessageId id) => e.raised || (e.before.getNoteBySourceMessageId id).isSome
  | _ => true

/-- A first ingest whose embedding failed and whose dead letter was lost, then a redelivery. -/
theorem redelivered_run_lost_letter :
    let env : Env := { Env.steady with
      embed := fun _ _ => .error (.runtimeError "provider down")
      storeFails := fun _ c => match c with
        | .saveIndexingDeadLetter _ => some (.runtimeError "connection lost")
        | _ => none }
    let service : DomainService := ⟨some ⟨"model", 1⟩⟩
    let message : InboundMessage := .plain .note "2026-05-09\nwalk" 0
    let pool := (deliveries (fun _ : Fin 2 => service) (fun _ => message)
      (World.initial .mock .plain)).run (serve (StoreKind.mock.backend .plain) env)
        (List.replicate 12 0 ++ List.replicate 5 1)
    Persisted env service message ⟨⟨2026, 5, 9, by decide⟩, "walk", "2026-05-09"⟩ {} pool.state.rows ∧
      ∀ i, ∃ result, (pool.progs i).value? = some (.ok result) ∧ result.fallback = .none ∧
        result.noteDate = some ⟨2026, 5, 9, by decide⟩ := by
  intro env service message pool
  let results : Fin 2 → Except Exn IngestResult :=
    fun i => (pool.progs i).value?.getD (.error .assertionError)
  have hvalue : ∀ i, (pool.progs i).value? = some (results i) := by decide +kernel
  have hok : ∀ i, ((results i).toOption).isSome := by decide +kernel
  have hletters : pool.state.failures.all (fun c => match c with
      | .saveIndexingDeadLetter _ => true
      | _ => false) = true := by decide +kernel
  have hfinds : pool.state.log.all Event.finds = true := by decide +kernel
  obtain ⟨hpersisted, hreports⟩ := redelivered_run .mock .plain env [] service message
    ⟨⟨2026, 5, 9, by decide⟩, "walk", "2026-05-09"⟩ (List.replicate 12 0 ++ List.replicate 5 1) results rfl
    (by decide +kernel) (by decide +kernel) (fun i => Prog.eq_ret_of_value? (hvalue i))
    (by decide +kernel)
    (fun c hc => by
      have hletter := List.all_eq_true.mp hletters c (List.mem_of_mem_drop hc)
      cases c with
      | saveIndexingDeadLetter => trivial
      | _ => cases hletter)
    (fun e he id hcall hraised => by
      have hfind := List.all_eq_true.mp hfinds e (List.mem_of_mem_drop he)
      simpa [Event.finds, hcall, hraised] using hfind)
  refine ⟨hpersisted, fun i => ?_⟩
  obtain ⟨result, hr⟩ := Option.isSome_iff_exists.mp (hok i)
  exact ⟨result, (hvalue i).trans (congrArg some (ok_of_toOption hr)),
    hreports i result (ok_of_toOption hr)⟩

/-- Two deliveries taking turns, none of whose calls raises, and a redelivery after the note could
not be saved : both report a well-formed note as invalid input. -/
theorem redelivery_reports_invalid :
    let service : DomainService := ⟨some ⟨"model", 1⟩⟩
    let message : InboundMessage := .plain .note "2026-05-09\nwalk" 0
    let pool := (deliveries (fun _ : Fin 2 => service) (fun _ => message)
      (World.initial .mock .plain)).run (serve (StoreKind.mock.backend .plain) .steady)
        (List.replicate 12 [0, 1]).flatten
    let env : Env := { Env.steady with
      storeFails := fun _ c => match c with
        | .saveNote _ => some (.runtimeError "connection lost")
        | _ => none }
    let first := (service.ingest message).exec (StoreKind.mock.backend .plain) env
      (World.initial .mock .plain)
    let again := (service.ingest message).exec (StoreKind.mock.backend .plain) env first.2
    (parseNote message.payload).isSome ∧
      (pool.state.failures = [] ∧ ((pool.progs 1).value?.bind Except.toOption).map
        IngestResult.fallback = some .invalidInput) ∧
      isRaise first.1 ∧ first.2.rows.sourceMessages.rows.length = 1 ∧
      again.1.toOption.map IngestResult.fallback = some .invalidInput ∧
      again.2.rows.notes.rows = [] := by
  decide +kernel

end DiaryMemory
