import DiaryMemory.DomainService
import DiaryMemory.Paths

/-!
# Revisions of a note

The calls that replace and remove the active revision of a note, as a function of the
rows they start from. `saveRevision` completes `Revision.calls` : it saves the new note
and its chunk, and flips the active revision it replaces.
`tombstoneActiveNoteForExternalMessage` flips the revision its lookup finds.

`IngestCall` is what an ingest promises of its calls : it adds rows to one source row
only, and embeds an active chunk of it.
-/

namespace DiaryMemory

variable {kind : StoreKind} {engine : SearchEngine} {env : Env}

/-! ## The active revision -/

namespace Tables

variable {T : Tables} {chat msg community : String}

/-- No chunk of the note is active. -/
def NoActiveChunk (T : Tables) (noteId : String) : Prop :=
  ∀ c ∈ T.eventChunks, c.noteId = noteId → c.lifecycleState ≠ .active

theorem Linked.noActiveChunk_of_none (hT : T.Linked) {n : Note} (hn : n ∈ T.notes)
    (h : T.getActiveChunkForNote n.noteId n.communityId = none) : T.NoActiveChunk n.noteId := by
  intro c hc hid hactive
  have hnone := getActiveChunk_eq_none.mp h
  have hmem : c ∈ T.activeChunksFor n.noteId n.communityId :=
    mem_activeChunksFor.mpr ⟨hc, hid, (hT.chunkOf hn hc hid.symm).community.symm, hactive⟩
  rw [hnone] at hmem
  cases hmem

/-- Once its chunk is flipped, no chunk of a note is active. -/
theorem Linked.noActiveChunk_markChunk (hT : T.Linked) {c : EventChunk} (hc : c ∈ T.eventChunks)
    {state : LifecycleState} (hstate : state ≠ .active) :
    (T.markChunk state c.chunkId).NoActiveChunk c.noteId := by
  intro x hx hid hactive
  obtain ⟨y, hy, rfl⟩ := mem_markChunk.mp hx
  by_cases he : y.chunkId = c.chunkId
  · rw [if_pos he] at hactive
    exact hstate hactive
  · rw [if_neg he] at hid
    exact he (congrArg EventChunk.chunkId (hT.chunk_unique y hy c hc hid))

/-- The active chunk of a note, if any. -/
def activeChunkOf (T : Tables) (community : String) (note : Option Note) : Option EventChunk :=
  note.bind fun n => T.getActiveChunkForNote n.noteId community

/-- Flip a note and its chunk, when there are any. -/
def flip (T : Tables) (state : LifecycleState) (note : Option Note) (chunk : Option EventChunk) :
    Tables :=
  let T := match chunk with
    | none => T
    | some c => T.markChunk state c.chunkId
  match note with
  | none => T
  | some n => T.markNote state n.noteId

theorem mem_flip_notes {state : LifecycleState} {note : Option Note} {chunk : Option EventChunk}
    {x : Note} : x ∈ (T.flip state note chunk).notes ↔ ∃ n ∈ T.notes,
      x = if note.map Note.noteId = some n.noteId then n.withState state else n := by
  cases note with
  | none => cases chunk <;> simp [flip, markChunk]
  | some m =>
    have hmark : ∀ T : Tables, x ∈ (T.markNote state m.noteId).notes ↔ ∃ n ∈ T.notes,
        x = if some m.noteId = some n.noteId then n.withState state else n := fun T => by
      simp only [mem_markNote, Option.some.injEq, eq_comm (a := m.noteId)]
    cases chunk with
    | none => exact hmark T
    | some c => exact hmark (T.markChunk state c.chunkId)

theorem mem_flip_chunks {state : LifecycleState} {note : Option Note} {chunk : Option EventChunk}
    {x : EventChunk} : x ∈ (T.flip state note chunk).eventChunks ↔ ∃ c ∈ T.eventChunks,
      x = if chunk.map EventChunk.chunkId = some c.chunkId then c.withState state else c := by
  cases chunk with
  | none => cases note <;> simp [flip, markNote]
  | some d =>
    cases note <;> simp only [flip, markNote, mem_markChunk, Option.map_some, Option.some.injEq,
      eq_comm (a := d.chunkId)]

@[simp]
theorem flip_sourceMessages {state : LifecycleState} {note : Option Note}
    {chunk : Option EventChunk} : (T.flip state note chunk).sourceMessages = T.sourceMessages := by
  cases note <;> cases chunk <;> rfl

end Tables

/-- The calls that flip a note and its chunk. -/
def flipCalls (state : LifecycleState) (community : String) (note : Option Note)
    (chunk : Option EventChunk) : List RepoCall :=
  (chunk.toList.map fun c => .markChunk state c.chunkId community) ++
    note.toList.map fun n => .markNote state n.noteId community

theorem effects_flipCalls (state : LifecycleState) (community : String) (note : Option Note)
    (chunk : Option EventChunk) (T : Tables) :
    RepoCall.effects (flipCalls state community note chunk) T = T.flip state note chunk := by
  cases note <;> cases chunk <;> rfl

/-- The note and the chunk can be flipped : they are active rows of the community, and a
note without a chunk has no active one. -/
structure Flippable (T : Tables) (community : String) (note : Option Note)
    (chunk : Option EventChunk) : Prop where
  inCommunity : note.isSome → community ≠ ""
  noteRow : ∀ n ∈ note, n ∈ T.notes ∧ n.communityId = community ∧ n.lifecycleState = .active
  chunkRow : ∀ c ∈ chunk, c ∈ T.eventChunks ∧ c.communityId = community ∧
    c.lifecycleState = .active ∧ ∃ n ∈ note, n.noteId = c.noteId
  chunkless : chunk = none → ∀ n ∈ note, T.NoActiveChunk n.noteId

namespace Flippable

variable {T : Tables} {community : String} {note : Option Note} {chunk : Option EventChunk}

/-- What the lookups of the active revision return can be flipped. -/
theorem of_lookup (hT : T.Linked) (hcomm : community ≠ "") {chat msg : String}
    (hnote : note = T.getActiveNoteForExternalMessage chat msg community)
    (hchunk : chunk = T.activeChunkOf community note) : Flippable T community note chunk := by
  have hn : ∀ n ∈ note, n ∈ T.notes ∧ n.communityId = community ∧ n.lifecycleState = .active := by
    intro n hn
    obtain ⟨hmem, hc, ha, -⟩ := Tables.mem_activeNotesFor.mp
      (Tables.mem_of_getActiveNote (hnote ▸ hn))
    exact ⟨hmem, hc, ha⟩
  refine ⟨fun _ => hcomm, hn, fun c hc => ?_, fun h n hnm => ?_⟩
  · rw [hchunk] at hc
    obtain ⟨n, hnm, hget⟩ := Option.bind_eq_some_iff.mp hc
    obtain ⟨hmem, hid, hcc, ha⟩ := Tables.mem_activeChunksFor.mp (Tables.mem_of_getActiveChunk hget)
    exact ⟨hmem, hcc, ha, n, hnm, hid.symm⟩
  · obtain ⟨hmem, rfl, -⟩ := hn n hnm
    refine hT.noActiveChunk_of_none hmem ?_
    rw [Option.mem_def] at hnm
    rw [hchunk, hnm] at h
    exact h

end Flippable

section Flipping

variable {P : Call → Tables → Prop} {w : World (kind.backend engine).State}
  {state : LifecycleState} {community : String} {n : Note} {c : EventChunk}

theorem allowed_markChunk (hstate : state ≠ .active) (hcomm : community ≠ "")
    (hc : c ∈ w.rows.eventChunks) (hcc : c.communityId = community)
    (ha : c.lifecycleState = .active) :
    Allowed env w (.repo (.markChunk state c.chunkId community)) :=
  ⟨⟨hstate, hcomm, c, hc, rfl, hcc, ha⟩, fun _ h => nomatch h⟩

theorem allowed_markNote (hstate : state ≠ .active) (hcomm : community ≠ "")
    (hn : n ∈ w.rows.notes) (hnc : n.communityId = community) (ha : n.lifecycleState = .active)
    (hno : w.rows.NoActiveChunk n.noteId) :
    Allowed env w (.repo (.markNote state n.noteId community)) :=
  ⟨⟨hstate, hcomm, ⟨n, hn, rfl, hnc, ha⟩, hno⟩, fun _ h => nomatch h⟩

/-- After its chunk, the note can be flipped. -/
theorem allowed_markNote_after (hs : Sound env w) (hstate : state ≠ .active)
    {note : Option Note} (hf : Flippable w.rows community note (some c)) (hn : n ∈ note)
    {w₁ : World (kind.backend engine).State}
    (hrows : w₁.rows = w.rows.markChunk state c.chunkId) :
    Allowed env w₁ (.repo (.markNote state n.noteId community)) := by
  obtain ⟨hnm, hnc, hna⟩ := hf.noteRow n hn
  obtain ⟨hcm, -, -, m, hm, hid⟩ := hf.chunkRow c rfl
  have hmn : m = n := Option.some.inj ((Option.mem_def.mp hm).symm.trans hn)
  refine allowed_markNote hstate (hf.inCommunity (Option.isSome_iff_exists.mpr ⟨n, hn⟩)) ?_ hnc hna ?_
  · rw [hrows]
    exact hnm
  · rw [hrows, ← hmn, hid]
    exact hs.linked.noActiveChunk_markChunk hcm hstate

/-- The lookups of the active revision may be made. -/
def MayLookUp (P : Call → Tables → Prop) (chat msg community : String) : Prop :=
  ∀ id T, P (.repo (.getActiveNoteForExternalMessage chat msg community)) T ∧
    P (.repo (.getActiveChunkForNote id community)) T

/-- A revision of the community may be flipped. -/
def MayFlip (P : Call → Tables → Prop) (state : LifecycleState) (community : String) : Prop :=
  ∀ id T, P (.repo (.markNote state id community)) T ∧ P (.repo (.markChunk state id community)) T

open DomainService in
theorem wp_supersede (hs : Sound env w) {note : Option Note} {chunk : Option EventChunk}
    (hf : Flippable w.rows community note chunk)
    (hP : MayFlip P .superseded community) :
    wp (contract kind engine env P) (supersede community note chunk)
      (Completes env (flipCalls .superseded community note chunk) w fun _ => True) w := by
  cases chunk with
  | none =>
    cases note with
    | none => exact completes_pure trivial
    | some n =>
      obtain ⟨hn, hnc, hna⟩ := hf.noteRow n rfl
      exact completes_repo (allowed_markNote nofun (hf.inCommunity rfl) hn hnc hna
        (hf.chunkless rfl n rfl)) (hP _ _).1 fun _ _ => trivial
  | some c =>
    obtain ⟨hc, hcc, hca, m, hm, -⟩ := hf.chunkRow c rfl
    have hcomm := hf.inCommunity (Option.isSome_iff_exists.mpr ⟨m, hm⟩)
    refine completes_repo_bind (allowed_markChunk nofun hcomm hc hcc hca) (hP _ _).2
      fun v w₁ hs₁ hr => ?_
    cases note with
    | none => exact completes_pure trivial
    | some n =>
      have hstate : LifecycleState.superseded ≠ .active := nofun
      exact completes_repo (allowed_markNote_after hs hstate hf rfl hr.rows) (hP _ _).1
        fun _ _ => trivial

/-- The calls of a removal : the lookups, and the flips of what they find. -/
def removalCalls (T : Tables) (chat msg community : String) (note : Option Note) : List RepoCall :=
  .getActiveNoteForExternalMessage chat msg community ::
    ((note.toList.map fun n => .getActiveChunkForNote n.noteId community) ++
      flipCalls .tombstoned community note (T.activeChunkOf community note))

theorem effects_removalCalls (T : Tables) (chat msg community : String) (note : Option Note) :
    RepoCall.effects (removalCalls T chat msg community note) T =
      T.flip .tombstoned note (T.activeChunkOf community note) := by
  rw [← effects_flipCalls .tombstoned community, removalCalls]
  cases note <;> rfl

/-- What holds of the flips of notes and chunks holds of these calls. -/
theorem forall_mem_flipCalls {p : RepoCall → Prop} {state : LifecycleState} {community : String}
    {note : Option Note} {chunk : Option EventChunk}
    (hflip : ∀ id, p (.markNote state id community) ∧ p (.markChunk state id community)) :
    ∀ c ∈ flipCalls state community note chunk, p c := by
  intro c hc
  rcases List.mem_append.mp hc with hc | hc
  · obtain ⟨d, -, rfl⟩ := List.mem_map.mp hc
    exact (hflip d.chunkId).2
  · obtain ⟨n, -, rfl⟩ := List.mem_map.mp hc
    exact (hflip n.noteId).1

/-- What holds of the lookups holds of these calls, if it does of those after them. -/
theorem forall_mem_lookups {p : RepoCall → Prop} {chat msg community : String} {note : Option Note}
    {cs : List RepoCall} (hfind : p (.getActiveNoteForExternalMessage chat msg community))
    (hget : ∀ id, p (.getActiveChunkForNote id community)) (hcs : ∀ c ∈ cs, p c) :
    ∀ c ∈ RepoCall.getActiveNoteForExternalMessage chat msg community ::
      ((note.toList.map fun n => .getActiveChunkForNote n.noteId community) ++ cs), p c := by
  refine List.forall_mem_cons.mpr ⟨hfind, List.forall_mem_append.mpr ⟨fun c hc => ?_, hcs⟩⟩
  obtain ⟨n, -, rfl⟩ := List.mem_map.mp hc
  exact hget n.noteId

open DomainService in
/-- A removal flips the most recent active revision, its chunk before its note. -/
theorem wp_tombstone (hs : Sound env w) (chat msg : String) (hl : MayLookUp P chat msg community)
    (hP : MayFlip P .tombstoned community) :
    wp (contract kind engine env P) (tombstoneActiveNoteForExternalMessage chat msg community)
      (Completes env (removalCalls w.rows chat msg community
        (w.rows.getActiveNoteForExternalMessage chat msg community)) w
        (· = w.rows.getActiveNoteForExternalMessage chat msg community)) w := by
  unfold tombstoneActiveNoteForExternalMessage
  refine completes_repo_bind ⟨trivial, nofun⟩ (hl "" _).1 fun v w₁ hs₁ hr => ?_
  have hv : v = w.rows.getActiveNoteForExternalMessage chat msg community := hr.value
  rw [← hv]
  cases v with
  | none => exact completes_pure rfl
  | some n =>
    refine completes_repo_bind ⟨trivial, nofun⟩ (hl _ _).2 fun u w₂ hs₂ hr₂ => ?_
    have hrows : w₂.rows = w.rows := hr₂.rows.trans hr.rows
    have hu : u = w.rows.activeChunkOf community (some n) := by
      rw [show w.rows = w₁.rows from hr.rows.symm]
      exact hr₂.value
    have hf : Flippable w₂.rows community (some n) u := by
      rw [hrows]
      exact .of_lookup hs.linked hr.accepted hv hu
    have hstate : LifecycleState.tombstoned ≠ .active := nofun
    rw [← hu]
    cases u with
    | none =>
      obtain ⟨hn, hnc, hna⟩ := hf.noteRow n rfl
      exact completes_repo_bind (allowed_markNote hstate (hf.inCommunity rfl) hn hnc hna
        (hf.chunkless rfl n rfl)) (hP _ _).1 fun _ _ _ _ => completes_pure rfl
    | some c =>
      obtain ⟨hc, hcc, hca, -⟩ := hf.chunkRow c rfl
      refine completes_repo_bind (allowed_markChunk hstate (hf.inCommunity rfl) hc hcc hca)
        (hP _ _).2 fun _ w₃ hs₃ hr₃ => ?_
      exact completes_repo_bind (allowed_markNote_after hs₂ hstate hf rfl hr₃.rows)
        (hP _ _).1 fun _ _ _ _ => completes_pure rfl

end Flipping

/-! ## A new revision -/

/-- A new revision, and the one it replaces. -/
structure Revision where
  note : Note
  chunks : List EventChunk
  priorNote : Option Note
  priorChunk : Option EventChunk

open DomainService in
/-- The revision of a parsed message that replaces the given one. -/
def newRevision (message : InboundMessage) (source : String) (now : DateTime) (parsed : ParsedNote)
    (noteId chunkId : String) (priorNote : Option Note) (priorChunk : Option EventChunk) :
    Revision :=
  let note := newNote message source now parsed noteId priorNote
  { note, priorNote, priorChunk
    chunks := if parsed.body = "" then [] else [newChunk note chunkId priorChunk] }

/-- The revision of a parsed message on the rows `T`. -/
def revision (T : Tables) (message : InboundMessage) (source : String) (now : DateTime)
    (parsed : ParsedNote) (noteId chunkId : String) : Revision :=
  let priorNote := T.getActiveNoteForExternalMessage message.externalChatId
    message.externalMessageId message.communityId
  newRevision message source now parsed noteId chunkId priorNote
    (T.activeChunkOf message.communityId priorNote)

namespace Revision

/-- The writes that save a revision and flip the one it replaces. -/
def writes (v : Revision) (community : String) : List RepoCall :=
  .saveNote v.note :: .saveEventChunks v.chunks ::
    flipCalls .superseded community v.priorNote v.priorChunk

/-- The calls of `saveRevision`. -/
def calls (v : Revision) (message : InboundMessage) : List RepoCall :=
  .getActiveNoteForExternalMessage message.externalChatId message.externalMessageId
      message.communityId ::
    ((v.priorNote.toList.map fun n => .getActiveChunkForNote n.noteId message.communityId) ++
      v.writes message.communityId)

theorem forall_mem_calls {p : RepoCall → Prop} {v : Revision} {message : InboundMessage}
    (hfind : p (.getActiveNoteForExternalMessage message.externalChatId message.externalMessageId
      message.communityId)) (hget : ∀ id, p (.getActiveChunkForNote id message.communityId))
    (hnote : p (.saveNote v.note)) (hchunks : p (.saveEventChunks v.chunks))
    (hflip : ∀ id, p (.markNote .superseded id message.communityId) ∧
      p (.markChunk .superseded id message.communityId)) : ∀ c ∈ v.calls message, p c :=
  forall_mem_lookups hfind hget (List.forall_mem_cons.mpr ⟨hnote, List.forall_mem_cons.mpr
    ⟨hchunks, forall_mem_flipCalls hflip⟩⟩)

/-- The rows with the revision. -/
def save (v : Revision) (T : Tables) : Tables :=
  ((T.putNote v.note).putChunks v.chunks).flip .superseded v.priorNote v.priorChunk

theorem effects_calls (v : Revision) (message : InboundMessage) (T : Tables) :
    RepoCall.effects (v.calls message) T = v.save T := by
  rw [save, ← effects_flipCalls .superseded message.communityId, calls, writes]
  cases v.priorNote <;> rfl

end Revision

/-- The identifiers are of no note and no chunk. -/
def Tables.Unused (T : Tables) (noteId chunkId : String) : Prop :=
  (∀ x ∈ T.notes, x.noteId ≠ noteId) ∧ ∀ x ∈ T.eventChunks, x.chunkId ≠ chunkId

section Saved

variable {T : Tables} {message : InboundMessage} {source : String} {now : DateTime}
  {parsed : ParsedNote} {noteId chunkId : String} {v : Revision}

theorem Revision.length_chunks (hv : v = revision T message source now parsed noteId chunkId) :
    v.chunks.length ≤ 1 := by
  rw [hv]
  simp only [revision, newRevision]
  split <;> simp

theorem Revision.mem_chunks (hv : v = revision T message source now parsed noteId chunkId)
    {c : EventChunk} : c ∈ v.chunks ↔
      parsed.body ≠ "" ∧ c = DomainService.newChunk v.note chunkId v.priorChunk := by
  rw [hv]
  simp only [revision, newRevision]
  split <;> simp [*]

/-- A revision adds no embedding record. -/
theorem Revision.save_embeddingRecords (v : Revision) (T : Tables) :
    (v.save T).embeddingRecords = T.embeddingRecords := by
  unfold save Tables.flip
  cases v.priorNote <;> cases v.priorChunk <;> rfl

/-- A new chunk has no record. -/
theorem Revision.unrecorded (hT : T.Linked) (hv : v = revision T message source now parsed noteId chunkId)
    (hu : T.Unused noteId chunkId) {c : EventChunk} (hc : c ∈ v.chunks) :
    ∀ x ∈ (v.save T).embeddingRecords, x.chunkId ≠ c.chunkId := by
  intro x hx hid
  rw [save_embeddingRecords] at hx
  obtain ⟨d, hd, hof⟩ := hT.record_chunk x hx
  rw [((mem_chunks hv).mp hc).2] at hid
  exact hu.2 d hd (hof.chunk.trans hid)

/-- The notes after a revision : the new one, and the old ones with the replaced one
flipped. -/
theorem Revision.mem_save_notes (hv : v = revision T message source now parsed noteId chunkId)
    (hu : T.Unused noteId chunkId) {x : Note} : x ∈ (v.save T).notes ↔ x = v.note ∨ ∃ n ∈ T.notes,
      x = if v.priorNote.map Note.noteId = some n.noteId then n.withState .superseded else n := by
  have hprior : ∀ n ∈ v.priorNote, n ∈ T.notes := by
    rw [hv]
    exact fun n hn => (Tables.mem_activeNotesFor.mp (Tables.mem_of_getActiveNote hn)).1
  have hid : v.note.noteId = noteId := by rw [hv]; rfl
  have hne : v.priorNote.map Note.noteId ≠ some v.note.noteId := by
    rw [hid]
    intro he
    obtain ⟨n, hn, hnid⟩ := Option.map_eq_some_iff.mp he
    exact hu.1 n (hprior n hn) hnid
  have hmem : ∀ n, n ∈ (T.putNote v.note).notes ↔ n = v.note ∨ n ∈ T.notes := fun n =>
    Table.mem_put_of_fresh (hid ▸ hu.1)
  rw [Revision.save, Tables.mem_flip_notes]
  constructor
  · rintro ⟨n, hn, rfl⟩
    rcases (hmem n).mp hn with rfl | hn
    · exact .inl (if_neg hne)
    · exact .inr ⟨n, hn, rfl⟩
  · rintro (rfl | ⟨n, hn, rfl⟩)
    · exact ⟨v.note, (hmem _).mpr (.inl rfl), (if_neg hne).symm⟩
    · exact ⟨n, (hmem n).mpr (.inr hn), rfl⟩

/-- The chunks once the new one is there. -/
theorem Revision.mem_added_chunks (hv : v = revision T message source now parsed noteId chunkId)
    (hu : T.Unused noteId chunkId) {x : EventChunk} :
    x ∈ ((T.putNote v.note).putChunks v.chunks).eventChunks ↔ x ∈ v.chunks ∨ x ∈ T.eventChunks := by
  have hid : ∀ c ∈ v.chunks, c.chunkId = chunkId := by
    intro c hc
    rw [((mem_chunks hv).mp hc).2]
    rfl
  have hnodup : (v.chunks.map EventChunk.chunkId).Nodup := by
    match hc : v.chunks, length_chunks hv with
    | [], _ => exact List.nodup_nil
    | [c], _ => exact List.nodup_singleton _
  exact Table.mem_putAll_of_fresh hnodup fun d hd y hy => hid d hd ▸ hu.2 y hy

/-- The chunk a revision replaces is one of the note it replaces. -/
theorem Revision.priorChunk_row (hv : v = revision T message source now parsed noteId chunkId)
    {c : EventChunk} (hc : c ∈ v.priorChunk) :
    c ∈ T.eventChunks ∧ v.priorNote.map Note.noteId = some c.noteId := by
  rw [hv] at hc ⊢
  obtain ⟨n, hn, hget⟩ := Option.bind_eq_some_iff.mp hc
  obtain ⟨hmem, hid, -⟩ := Tables.mem_activeChunksFor.mp (Tables.mem_of_getActiveChunk hget)
  exact ⟨hmem, Option.map_eq_some_iff.mpr ⟨n, hn, hid.symm⟩⟩

/-- The chunks after a revision. -/
theorem Revision.mem_save_chunks (hv : v = revision T message source now parsed noteId chunkId)
    (hu : T.Unused noteId chunkId) {x : EventChunk} : x ∈ (v.save T).eventChunks ↔
      x ∈ v.chunks ∨ ∃ c ∈ T.eventChunks,
      x = if v.priorChunk.map EventChunk.chunkId = some c.chunkId then c.withState .superseded
        else c := by
  have hne : ∀ c ∈ v.chunks, v.priorChunk.map EventChunk.chunkId ≠ some c.chunkId := by
    intro c hc he
    obtain ⟨d, hd, hdid⟩ := Option.map_eq_some_iff.mp he
    rw [((mem_chunks hv).mp hc).2] at hdid
    exact hu.2 d (priorChunk_row hv hd).1 hdid
  rw [Revision.save, Tables.mem_flip_chunks]
  constructor
  · rintro ⟨c, hc, rfl⟩
    rcases (mem_added_chunks hv hu).mp hc with hc | hc
    · exact .inl ((if_neg (hne c hc)).symm ▸ hc)
    · exact .inr ⟨c, hc, rfl⟩
  · rintro (hx | ⟨c, hc, rfl⟩)
    · exact ⟨x, (mem_added_chunks hv hu).mpr (.inl hx), (if_neg (hne x hx)).symm⟩
    · exact ⟨c, (mem_added_chunks hv hu).mpr (.inr hc), rfl⟩

end Saved

/-- A vector the provider answers for a text. -/
def Env.Vectorizes (env : Env) (text : String) (vector : Vec) : Prop :=
  ∃ n, env.embed n [text] = .ok [vector]

namespace Tables

variable (T : Tables)

/-- The record is of a chunk that is there, under the model of the client, and holds a
vector of its text. -/
def EmbedsAs (env : Env) (client : Option EmbeddingClient) (r : EmbeddingRecord) : Prop :=
  (∃ cl ∈ client, r.modelName = cl.modelName) ∧
    ∃ c ∈ T.eventChunks, RecordOf c r ∧ env.Vectorizes c.chunkText r.embedding

/-- The chunk has a record under the model of the client. -/
def HasRecord (client : Option EmbeddingClient) (id : String) : Prop :=
  ∃ cl ∈ client, ∃ r ∈ T.embeddingRecords, r.chunkId = id ∧ r.modelName = cl.modelName

/-- The chunks a dead letter names are of its source row. -/
def OwnsChunks (d : IndexingDeadLetter) : Prop :=
  ∀ id ∈ d.chunkIds, ∃ c ∈ T.eventChunks, c.chunkId = id ∧ c.sourceMessageId = d.sourceMessageId

/-- An active chunk of a source row of the community. -/
def ActiveChunk (source community id : String) : Prop :=
  ∃ c ∈ T.eventChunks, c.chunkId = id ∧ c.sourceMessageId = source ∧ c.communityId = community ∧
    c.lifecycleState = .active

end Tables

/-- The rows an ingest may add hang on the source row `source`, and what it embeds is
active. -/
def IngestCall (env : Env) (client : Option EmbeddingClient) (source community : String) :
    Call → Tables → Prop
  | .repo (.getOrCreateSourceMessage s), _ => s.sourceMessageId = source ∧ s.communityId = community
  | .repo (.saveNote n), _ => n.sourceMessageId = source ∧ n.communityId = community
  | .repo (.saveEventChunks cs), _ =>
    ∀ c ∈ cs, c.sourceMessageId = source ∧ c.communityId = community
  | .repo (.saveEmbeddingRecords rs), T => ∀ r ∈ rs, r.communityId = community ∧
    T.EmbedsAs env client r ∧ T.ActiveChunk source community r.chunkId
  | .repo (.setChunkEmbeddingStatus id status), T => T.ActiveChunk source community id ∧
    (status = .ready → T.HasRecord client id)
  | .repo (.saveIndexingDeadLetter d), T => d.sourceMessageId = source ∧
    d.communityId = community ∧ T.OwnsChunks d
  | .repo (.markNote _ _ c), _ | .repo (.markChunk _ _ c), _ => c = community
  | .repo (.getNoteBySourceMessageId _), _ | .repo (.getActiveNoteForExternalMessage ..), _
  | .repo (.countEventChunksForSource _), _ | .repo (.getActiveChunkForNote ..), _ => True
  | .sys .uuid4, _ | .sys .now, _ => True
  | .sys (.embed cs), T => ∀ c ∈ cs, c ∈ T.eventChunks ∧ c.sourceMessageId = source ∧
    c.lifecycleState = .active
  | _, _ => False

section Saving

variable {P : Call → Tables → Prop} {w : World (kind.backend engine).State}
  {message : InboundMessage} {source : String} {now : DateTime} {parsed : ParsedNote}
  {client : Option EmbeddingClient}

/-- Adding a note with its chunk leaves the revision it replaces as it was. -/
theorem Flippable.of_added {T : Tables} {community : String} {priorNote : Option Note}
    {priorChunk : Option EventChunk} (hf : Flippable T community priorNote priorChunk) {note : Note}
    {chunks : List EventChunk} (hnote : ∀ x ∈ T.notes, x.noteId ≠ note.noteId)
    (hlen : chunks.length ≤ 1)
    (hchunks : ∀ c ∈ chunks, c.noteId = note.noteId ∧ ∀ x ∈ T.eventChunks, x.chunkId ≠ c.chunkId) :
    Flippable ((T.putNote note).putChunks chunks) community priorNote priorChunk := by
  have hnodup : (chunks.map EventChunk.chunkId).Nodup := by
    match chunks, hlen with
    | [], _ => exact List.nodup_nil
    | [c], _ => exact List.nodup_singleton _
  have hmem : ∀ x, x ∈ ((T.putNote note).putChunks chunks).eventChunks ↔
      x ∈ chunks ∨ x ∈ T.eventChunks := fun x =>
    Table.mem_putAll_of_fresh hnodup fun c hc y hy => (hchunks c hc).2 y hy
  refine ⟨hf.inCommunity, fun n hn => ?_, fun c hc => ?_, fun h n hn x hx hid => ?_⟩
  · obtain ⟨hm, hrest⟩ := hf.noteRow n hn
    exact ⟨Table.mem_put_of_ne hm (hnote n hm), hrest⟩
  · obtain ⟨hm, hrest⟩ := hf.chunkRow c hc
    exact ⟨(hmem c).mpr (Or.inr hm), hrest⟩
  · rcases (hmem x).mp hx with hx | hx
    · exact absurd (hid.symm.trans (hchunks x hx).1) (hnote n (hf.noteRow n hn).1)
    · exact hf.chunkless h n hn x hx hid

open DomainService in
/-- The chunk is saved, then the replaced revision flipped. -/
theorem wp_saveChunks {community : String} {priorNote : Option Note}
    {priorChunk : Option EventChunk} {chunks : List EventChunk}
    (ha : Allowed env w (.repo (.saveEventChunks chunks)))
    (hf : Flippable (w.rows.putChunks chunks) community priorNote priorChunk)
    (hP : P (.repo (.saveEventChunks chunks)) w.rows) (hflip : MayFlip P .superseded community) :
    wp (contract kind engine env P)
      (do
        Proc.saveEventChunks chunks
        supersede community priorNote priorChunk
        pure chunks)
      (Completes env (.saveEventChunks chunks ::
        flipCalls .superseded community priorNote priorChunk) w (· = chunks)) w := by
  refine completes_repo_bind ha hP fun _ w₁ hs₁ hr => ?_
  rw [← List.append_nil (flipCalls _ _ _ _)]
  exact completes_seq hs₁ (wp_supersede hs₁ (by rw [hr.rows]; exact hf) hflip)
    fun _ _ _ _ _ => completes_pure rfl

/-- The identifiers of a new note and its chunk are not drawn yet. -/
def NewIds (env : Env) (w : World (kind.backend engine).State) (noteId chunkId : String) : Prop :=
  Undrawn env.uuid w.draws noteId ∧ Undrawn env.uuid w.draws chunkId

theorem NewIds.mono {w v : World (kind.backend engine).State} {noteId chunkId : String}
    (h : NewIds env v noteId chunkId) (hdraws : w.draws ≤ v.draws) : NewIds env w noteId chunkId :=
  ⟨h.1.mono hdraws, h.2.mono hdraws⟩

/-- The next identifiers can be of a new note and its chunk. -/
theorem NewIds.next (env : Env) (w : World (kind.backend engine).State) :
    NewIds env w (env.uuid w.draws) (env.uuid w.draws) :=
  ⟨⟨_, le_rfl, rfl⟩, _, le_rfl, rfl⟩

theorem NewIds.unused {w : World (kind.backend engine).State} {noteId chunkId : String}
    (hs : Sound env w) (h : NewIds env w noteId chunkId) : w.rows.Unused noteId chunkId :=
  ⟨fun x hx => h.1.ne env.uuid_injective (hs.minted.note x hx),
    fun x hx => h.2.ne env.uuid_injective (hs.minted.chunk x hx)⟩

/-- An identifier drawn after a world is of no note of it. -/
theorem Sound.fresh_note (hs : Sound env w) {j : Nat} (hj : w.draws ≤ j) :
    ∀ x ∈ w.rows.notes, x.noteId ≠ env.uuid j := fun x hx =>
  (hs.minted.note x hx).ne env.uuid_injective hj

theorem Sound.fresh_chunk (hs : Sound env w) {j : Nat} (hj : w.draws ≤ j) :
    ∀ x ∈ w.rows.eventChunks, x.chunkId ≠ env.uuid j := fun x hx =>
  (hs.minted.chunk x hx).ne env.uuid_injective hj

open DomainService in
/-- Once its note is saved, a revision gets its chunk and replaces the one before. -/
theorem wp_newChunks (hs : Sound env w) {T : Tables} (hT : T.Linked)
    {noteId : String} {priorNote : Option Note} {priorChunk : Option EventChunk}
    (hnote : ∀ x ∈ T.notes, x.noteId ≠ noteId)
    (hrows : w.rows = T.putNote (newNote message source now parsed noteId priorNote))
    (hf : Flippable T message.communityId priorNote priorChunk)
    (hP : ∀ c T, IngestCall env client source message.communityId c T → P c T) :
    wp (contract kind engine env P)
      (do
        let chunks ← newChunks (newNote message source now parsed noteId priorNote) priorChunk
        Proc.saveEventChunks chunks
        supersede message.communityId priorNote priorChunk
        pure chunks)
      (fun r w' => ∃ chunkId, Undrawn env.uuid w.draws chunkId ∧
        ∀ v, v = newRevision message source now parsed noteId chunkId priorNote priorChunk →
        Completes env (.saveEventChunks v.chunks ::
          flipCalls .superseded message.communityId priorNote priorChunk) w (· = v.chunks) r w') w := by
  have hflip : MayFlip P .superseded message.communityId := fun _ _ => ⟨hP _ _ rfl, hP _ _ rfl⟩
  have hchunks : w.rows.eventChunks = T.eventChunks := by rw [hrows]; rfl
  by_cases hbody : parsed.body = ""
  · have hif : (newNote message source now parsed noteId priorNote).noteText = "" := hbody
    rw [newChunks, if_pos hif]
    refine wp_imp (fun r w' hc => ⟨env.uuid w.draws, ⟨_, le_rfl, rfl⟩, fun v hv => ?_⟩)
      (wp_saveChunks ⟨⟨Nat.zero_le 1, nofun⟩, nofun⟩ ?_ (hP _ _ nofun) hflip)
    · rw [show v.chunks = [] by rw [hv, newRevision, if_pos hbody]]
      exact hc
    · rw [hrows]
      exact hf.of_added hnote (Nat.zero_le 1) nofun
  · have hif : (newNote message source now parsed noteId priorNote).noteText ≠ "" := hbody
    rw [newChunks, if_neg hif]
    refine wp_uuid4_bind (hP _ _ trivial) fun k w₁ hs₁ ht hk hk' => ?_
    set note := newNote message source now parsed noteId priorNote with hnoteEq
    set chunk := newChunk note (env.uuid k) priorChunk with hchunkEq
    have hrows₁ : w₁.rows = T.putNote note := ht.rows.trans hrows
    have hfresh : ∀ x ∈ T.eventChunks, x.chunkId ≠ env.uuid k := by
      rw [← hchunks]
      exact hs.fresh_chunk hk
    have hnew : ∀ c ∈ [chunk], c.noteId = note.noteId ∧ ∀ x ∈ T.eventChunks, x.chunkId ≠ c.chunkId := by
      intro c hc
      rw [List.mem_singleton.mp hc]
      exact ⟨rfl, hfresh⟩
    have hguard : (RepoCall.saveEventChunks [chunk]).Guard w₁.rows := by
      refine ⟨le_rfl, fun c hc => ?_⟩
      rw [List.mem_singleton.mp hc, hrows₁]
      refine ⟨fun x hx => ⟨hfresh x hx, fun hid => ?_⟩, rfl, rfl, note, Table.mem_put_self,
        ⟨rfl, rfl, rfl, rfl, rfl, rfl, rfl, hbody⟩, rfl⟩
      obtain ⟨n, hn, ho⟩ := hT.chunk_note x hx
      exact hnote n hn (ho.note.trans hid)
    refine wp_imp (fun r w' hc => ⟨env.uuid k, ⟨k, hk, rfl⟩, fun v hv => ?_⟩)
      (wp_saveChunks ⟨hguard, ?_⟩ ?_ (hP _ _ ?_) hflip)
    · rw [show v.chunks = [chunk] by rw [hv, newRevision, if_neg hbody]]
      exact hc.later (ht.later rfl nofun)
    · intro id hid
      rw [List.mem_singleton.mp hid]
      exact ⟨k, hk', rfl⟩
    · rw [hrows₁]
      exact hf.of_added hnote le_rfl hnew
    · intro c hc
      rw [List.mem_singleton.mp hc]
      exact ⟨rfl, rfl⟩

open DomainService in
/-- Once the active revision is looked up, the new one is saved. -/
theorem wp_saveNew (hs : Sound env w)
    (hsource : ∃ s ∈ w.rows.sourceMessages, s.sourceMessageId = source ∧
      s.communityId = message.communityId ∧ s.authorUserId = message.externalUserId)
    (hnew : ∀ x ∈ w.rows.notes, x.sourceMessageId ≠ source)
    {priorNote : Option Note} {priorChunk : Option EventChunk}
    (hf : Flippable w.rows message.communityId priorNote priorChunk)
    (hP : ∀ c T, IngestCall env client source message.communityId c T → P c T) :
    wp (contract kind engine env P)
      (do
        let noteId ← Proc.uuid4
        Proc.saveNote (newNote message source now parsed noteId priorNote)
        let chunks ← newChunks (newNote message source now parsed noteId priorNote) priorChunk
        Proc.saveEventChunks chunks
        supersede message.communityId priorNote priorChunk
        pure chunks)
      (fun r w' => ∃ noteId chunkId, NewIds env w noteId chunkId ∧
        ∀ v, v = newRevision message source now parsed noteId chunkId priorNote priorChunk →
        Completes env (v.writes message.communityId) w (· = v.chunks) r w') w := by
  refine wp_uuid4_bind (hP _ _ trivial) fun k w₁ hs₁ ht hk hk' => ?_
  have hl := ht.later rfl nofun
  have hfresh := hs.fresh_note hk
  have hguard : (RepoCall.saveNote (newNote message source now parsed (env.uuid k) priorNote)).Guard
      w₁.rows := by
    rw [hl.rows]
    obtain ⟨s, hsm, hid, hsc, hsa⟩ := hsource
    exact ⟨fun x hx => ⟨hfresh x hx, hnew x hx⟩, rfl, s, hsm, hid, hsc, hsa⟩
  have hdrawn : ∀ id ∈ (RepoCall.saveNote
      (newNote message source now parsed (env.uuid k) priorNote)).newIds,
      Drawn env.uuid w₁.draws id := by
    intro id hid
    rw [List.mem_singleton.mp hid]
    exact ⟨k, hk', rfl⟩
  refine wp_repo_bind ⟨hguard, hdrawn⟩ (hP _ _ ⟨rfl, rfl⟩) (fun e w₂ _ hr => ?_)
    fun _ w₂ hs₂ hr => ?_
  · refine ⟨env.uuid k, env.uuid w.draws, ⟨⟨k, hk, rfl⟩, _, le_rfl, rfl⟩, fun v hv => ?_⟩
    rw [hv]
    exact .later hl (.raised hr)
  · have hrows : w₂.rows = w.rows.putNote (newNote message source now parsed (env.uuid k) priorNote) := by
      rw [hr.rows, hl.rows]
      rfl
    refine wp_imp (fun r w' hc => ?_) (wp_newChunks hs₂ hs.linked hfresh hrows hf hP)
    obtain ⟨chunkId, hchunk, hc⟩ := hc
    refine ⟨env.uuid k, chunkId, ⟨⟨k, hk, rfl⟩, hchunk.mono (hl.draws.trans hr.draws)⟩,
      fun v hv => .later hl ?_⟩
    have hcv := hc v hv
    rw [hv] at hcv ⊢
    exact .cons hr hcv

open DomainService in
/-- A parsed message is saved as the revision that replaces the active one. -/
theorem wp_saveRevision (hs : Sound env w)
    (hsource : ∃ s ∈ w.rows.sourceMessages, s.sourceMessageId = source ∧
      s.communityId = message.communityId ∧ s.authorUserId = message.externalUserId)
    (hnew : ∀ x ∈ w.rows.notes, x.sourceMessageId ≠ source)
    (hP : ∀ c T, IngestCall env client source message.communityId c T → P c T) :
    wp (contract kind engine env P) (saveRevision message source now parsed)
      (fun r w' => ∃ noteId chunkId, NewIds env w noteId chunkId ∧
        ∀ v, v = revision w.rows message source now parsed noteId chunkId →
        Completes env (v.calls message) w (· = v.chunks) r w') w := by
  have hlook : MayLookUp P message.externalChatId message.externalMessageId message.communityId :=
    fun _ _ => ⟨hP _ _ trivial, hP _ _ trivial⟩
  unfold saveRevision
  refine wp_repo_bind ⟨trivial, nofun⟩ (hlook "" _).1 (fun e w₁ _ hr => ?_) fun priorNote w₁ hs₁ hr => ?_
  · exact ⟨_, _, .next env w, fun v _ => .raised hr⟩
  have hprior : priorNote = w.rows.getActiveNoteForExternalMessage message.externalChatId
      message.externalMessageId message.communityId := hr.value
  have hrows : w₁.rows = w.rows := hr.rows
  rw [← hrows] at hsource hnew
  cases priorNote with
  | none =>
    have hf : Flippable w₁.rows message.communityId none none := by
      rw [hrows]
      exact .of_lookup hs.linked hr.accepted hprior rfl
    refine wp_imp (fun r w' hc => ?_) (wp_saveNew hs₁ hsource hnew hf hP)
    obtain ⟨noteId, chunkId, hids, hc⟩ := hc
    refine ⟨noteId, chunkId, hids.mono hr.draws, fun v hv => ?_⟩
    rw [revision, ← hprior] at hv
    have hcv := hc v hv
    rw [Revision.calls, show v.priorNote = none by rw [hv]; rfl]
    exact .cons hr hcv
  | some n =>
    refine wp_repo_bind ⟨trivial, nofun⟩ (hlook _ _).2 (fun e w₂ _ hr₂ => ?_) fun u w₂ hs₂ hr₂ => ?_
    · refine ⟨_, _, .next env w, fun v hv => ?_⟩
      rw [revision, ← hprior] at hv
      rw [Revision.calls, show v.priorNote = some n by rw [hv]; rfl]
      exact .cons hr (.raised hr₂)
    have hrows₂ : w₂.rows = w₁.rows := hr₂.rows
    have hu : u = w.rows.activeChunkOf message.communityId (some n) := by
      rw [← hrows]
      exact hr₂.value
    have hf : Flippable w₂.rows message.communityId (some n) u := by
      rw [hrows₂, hrows]
      exact .of_lookup hs.linked hr.accepted hprior hu
    rw [← hrows₂] at hsource hnew
    refine wp_imp (fun r w' hc => ?_) (wp_saveNew hs₂ hsource hnew hf hP)
    obtain ⟨noteId, chunkId, hids, hc⟩ := hc
    refine ⟨noteId, chunkId, hids.mono (hr.draws.trans hr₂.draws), fun v hv => ?_⟩
    rw [revision, ← hprior, ← hu] at hv
    have hcv := hc v hv
    rw [Revision.calls, show v.priorNote = some n by rw [hv]; rfl]
    exact .cons hr (.cons hr₂ hcv)

end Saving

end DiaryMemory
