import DiaryMemory.Settled

/-!
# Edits that stop halfway

A note edit saves the new revision before it flips the one it replaces, the chunk before
the note. The rows it leaves when a call raises are those after some of its calls
(`Revision.stages`), and whichever they are the message is handed over (`HandedOver`) : it
has an active note throughout and an active chunk where both revisions have one, and the
replaced note is closed only with its chunk, once the new revision is there.
-/

namespace DiaryMemory

namespace Tables

/-- A note of the message has an active chunk. -/
def Retrievable (T : Tables) (chat msg community : String) : Prop :=
  ∃ n ∈ T.notes, n.communityId = community ∧ T.sourceIsFor chat msg n.sourceMessageId = true ∧
    ¬ T.NoActiveChunk n.noteId

/-- The message state is saved : its source row, an active note, and the active chunk of its
body unless that is empty. -/
def SavedWhole (T : Tables) (message : InboundMessage) (parsed : ParsedNote) : Prop :=
  ∃ s ∈ T.sourceMessages, s.messageKey = message.messageKey ∧
    ∃ n ∈ T.notes, n.sourceMessageId = s.sourceMessageId ∧ n.communityId = message.communityId ∧
      n.lifecycleState = .active ∧ n.noteDate = parsed.noteDate ∧ n.noteText = parsed.body ∧
      (parsed.body ≠ "" → ∃ c ∈ T.eventChunks, c.noteId = n.noteId ∧
        c.lifecycleState = .active ∧ c.chunkText = parsed.body)

/-- What an edit of a message leaves of the rows `T`, where `prior` was its active note. -/
structure HandedOver (T T' : Tables) (message : InboundMessage) (parsed : ParsedNote)
    (community : String) (prior : Note) : Prop where
  active : T'.activeNotesFor message.externalChatId message.externalMessageId community ≠ []
  chunk : parsed.body ≠ "" → ¬ T.NoActiveChunk prior.noteId →
    T'.Retrievable message.externalChatId message.externalMessageId community
  replaced : (∀ n ∈ T'.notes, n.noteId = prior.noteId → n.lifecycleState ≠ .active) →
    T'.NoActiveChunk prior.noteId ∧ T'.SavedWhole message parsed

section Kept

variable {T T' : Tables} {message : InboundMessage} {parsed : ParsedNote} {community : String}
  {prior : Note}

theorem mem_activeNotesFor_of_kept {chat msg : String}
    (h : prior ∈ T.activeNotesFor chat msg community)
    (hsources : T'.sourceMessages = T.sourceMessages) (hkept : prior ∈ T'.notes) :
    prior ∈ T'.activeNotesFor chat msg community := by
  obtain ⟨-, hc, ha, hfor⟩ := mem_activeNotesFor.mp h
  rw [sourceIsFor, ← hsources, ← sourceIsFor] at hfor
  exact mem_activeNotesFor.mpr ⟨hkept, hc, ha, hfor⟩

/-- An active note with its chunk as before is not replaced. -/
theorem HandedOver.of_kept
    (hactive : prior ∈ T'.activeNotesFor message.externalChatId message.externalMessageId community)
    (hchunk : T'.NoActiveChunk prior.noteId → T.NoActiveChunk prior.noteId) :
    T.HandedOver T' message parsed community prior := by
  obtain ⟨hn, hc, ha, hfor⟩ := mem_activeNotesFor.mp hactive
  refine ⟨List.ne_nil_of_mem hactive, fun _ h => ⟨prior, hn, hc, hfor, mt hchunk h⟩, fun h => ?_⟩
  exact absurd ha (h prior hn rfl)

theorem NoActiveChunk.of_subset {id : String} (h : ∀ c ∈ T.eventChunks, c.noteId = id →
    c.lifecycleState = .active → c ∈ T'.eventChunks) (hno : T'.NoActiveChunk id) :
    T.NoActiveChunk id := fun c hc hid ha => hno c (h c hc hid ha) hid ha

theorem Restatused.noActiveChunk (h : T.Restatused T') {id : String} :
    T'.NoActiveChunk id ↔ T.NoActiveChunk id := by
  constructor
  · intro hno c hc hid ha
    obtain ⟨status, hc'⟩ := h.mem_of hc
    exact hno _ hc' hid ha
  · intro hno c' hc'
    obtain ⟨c, hc, he⟩ := h.mem hc'
    rw [he]
    exact hno c hc

/-- The statuses of the chunks do not matter. -/
theorem HandedOver.restatused {T'' : Tables} (h : T.HandedOver T' message parsed community prior)
    (hr : T'.Restatused T'') : T.HandedOver T'' message parsed community prior where
  active := by
    rw [hr.activeNotesFor]
    exact h.active
  chunk hbody hprior := by
    obtain ⟨n, hn, hc, hfor, hchunk⟩ := h.chunk hbody hprior
    refine ⟨n, hr.notes ▸ hn, hc, ?_, mt hr.noActiveChunk.mp hchunk⟩
    rwa [sourceIsFor, hr.sources, ← sourceIsFor]
  replaced hinactive := by
    rw [hr.notes] at hinactive
    obtain ⟨hno, s, hs, hkey, n, hn, hsource, hcomm, ha, hdate, htext, hchunk⟩ := h.replaced hinactive
    refine ⟨hr.noActiveChunk.mpr hno, s, hr.sources ▸ hs, hkey, n, hr.notes ▸ hn, hsource, hcomm, ha,
      hdate, htext, fun hbody => ?_⟩
    obtain ⟨c, hc, hid, hca, hct⟩ := hchunk hbody
    obtain ⟨status, hc'⟩ := hr.mem_of hc
    exact ⟨_, hc', hid, hca, hct⟩

end Kept

end Tables

/-! ## The stages of a revision -/

/-- `P` holds of the rows before each of the calls, and after the last. -/
def RepoCall.Along (P : Tables → Prop) : List RepoCall → Tables → Prop
  | [], T => P T
  | c :: cs, T => P T ∧ Along P cs (c.effect T)

theorem RepoCall.Along.of_append {P : Tables → Prop} {done rest : List RepoCall} {T : Tables}
    (h : Along P (done ++ rest) T) : P (RepoCall.effects done T) := by
  induction done generalizing T with
  | nil =>
    cases rest with
    | nil => exact h
    | cons c rest => exact h.1
  | cons c done ih => exact ih h.2

theorem RepoCall.Along.of_effects {P : Tables → Prop} {cs : List RepoCall} {T : Tables}
    (h : Along P cs T) : P (RepoCall.effects cs T) := by
  rw [← List.append_nil cs] at h
  exact of_append h

theorem RepoCall.Along.mono {P P' : Tables → Prop} (hP : ∀ T, P T → P' T) :
    ∀ {cs : List RepoCall} {T : Tables}, Along P cs T → Along P' cs T
  | [], T, h => hP T h
  | _ :: _, T, h => ⟨hP T h.1, h.2.mono hP⟩

/-- The rows on the way of a revision : nothing written, the note, its chunk, the replaced
chunk flipped, and all of it. -/
theorem Revision.along (v : Revision) (message : InboundMessage) {P : Tables → Prop} {T : Tables}
    (hstart : P T) (hnote : P (T.putNote v.note))
    (hchunks : P ((T.putNote v.note).putChunks v.chunks))
    (hflip : ∀ c ∈ v.priorChunk,
      P (((T.putNote v.note).putChunks v.chunks).markChunk .superseded c.chunkId))
    (hend : P (v.save T)) : RepoCall.Along P (v.calls message) T := by
  obtain ⟨note, chunks, priorNote, priorChunk⟩ := v
  cases priorNote with
  | none =>
    cases priorChunk with
    | none => exact ⟨hstart, hstart, hnote, hchunks⟩
    | some c => exact ⟨hstart, hstart, hnote, hchunks, hend⟩
  | some n =>
    cases priorChunk with
    | none => exact ⟨hstart, hstart, hstart, hnote, hchunks, hend⟩
    | some c => exact ⟨hstart, hstart, hstart, hnote, hchunks, hflip c rfl, hend⟩

section Stages

variable {T : Tables} {message : InboundMessage} {source community : String} {now : DateTime}
  {parsed : ParsedNote} {noteId chunkId : String} {v : Revision} {prior : Note}

/-- On the way of a revision the replaced note and its chunk stay until their flips. -/
theorem Revision.along_kept (hv : v = revision T message source now parsed noteId chunkId)
    (hu : T.Unused noteId chunkId) (hprior : prior ∈ T.notes)
    (hother : v.priorNote.map Note.noteId ≠ some prior.noteId) :
    RepoCall.Along (fun T' => T'.sourceMessages = T.sourceMessages ∧ prior ∈ T'.notes ∧
      ∀ c ∈ T.eventChunks, c.noteId = prior.noteId → c ∈ T'.eventChunks) (v.calls message) T := by
  have hid : v.note.noteId = noteId := by rw [hv]; rfl
  have hnote : prior ∈ (T.putNote v.note).notes :=
    Table.mem_put_of_ne hprior (by rw [hid]; exact hu.1 prior hprior)
  have hdiffers : ∀ d ∈ v.priorChunk, ∀ c ∈ T.eventChunks, c.noteId = prior.noteId →
      c.chunkId ≠ d.chunkId := by
    intro d hd c hc hcid he
    obtain ⟨hdm, hdn⟩ := priorChunk_row hv hd
    rw [← Table.eq_of_key hc hdm he, hcid] at hdn
    exact hother hdn
  refine along v message ⟨rfl, hprior, fun c hc _ => hc⟩ ⟨rfl, hnote, fun c hc _ => hc⟩
    ⟨rfl, hnote, fun c hc _ => (mem_added_chunks hv hu).mpr (.inr hc)⟩
    (fun d hd => ⟨rfl, hnote, fun c hc hcid => ?_⟩) ⟨v.save_sourceMessages T, ?_, fun c hc hcid => ?_⟩
  · refine Tables.mem_markChunk.mpr ⟨c, (mem_added_chunks hv hu).mpr (.inr hc), ?_⟩
    rw [if_neg (hdiffers d hd c hc hcid)]
  · exact (mem_save_notes hv hu).mpr (.inr ⟨prior, hprior, (if_neg hother).symm⟩)
  · refine (mem_save_chunks hv hu).mpr (.inr ⟨c, hc, (if_neg fun he => ?_).symm⟩)
    obtain ⟨d, hd, hdid⟩ := Option.map_eq_some_iff.mp he
    exact hdiffers d hd c hc hcid hdid.symm

/-- The new revision makes its message retrievable. -/
theorem Revision.retrievable (hv : v = revision T message source now parsed noteId chunkId)
    {T' : Tables} (hbody : parsed.body ≠ "") (hnote : v.note ∈ T'.notes)
    (hchunks : ∀ c ∈ v.chunks, c ∈ T'.eventChunks)
    (hfor : T'.sourceIsFor message.externalChatId message.externalMessageId source = true) :
    T'.Retrievable message.externalChatId message.externalMessageId message.communityId := by
  refine ⟨v.note, hnote, by rw [hv]; rfl, by rw [hv]; exact hfor, fun hno => ?_⟩
  exact hno _ (hchunks _ ((mem_chunks hv).mpr ⟨hbody, rfl⟩)) rfl rfl

/-- A revision that is saved is saved whole. -/
theorem Revision.savedWhole (hv : v = revision T message source now parsed noteId chunkId)
    (hu : T.Unused noteId chunkId)
    (hsource : ∃ s ∈ T.sourceMessages, s.sourceMessageId = source ∧
      s.messageKey = message.messageKey) : (v.save T).SavedWhole message parsed := by
  obtain ⟨s, hs, hsid, hkey⟩ := hsource
  refine ⟨s, by rwa [save_sourceMessages], hkey, v.note, (mem_save_notes hv hu).mpr (.inl rfl), ?_⟩
  have hchunk : parsed.body ≠ "" → DomainService.newChunk v.note chunkId v.priorChunk ∈
      (v.save T).eventChunks := fun hbody =>
    (mem_save_chunks hv hu).mpr (.inl ((mem_chunks hv).mpr ⟨hbody, rfl⟩))
  rw [hv] at hchunk ⊢
  exact ⟨hsid.symm, rfl, rfl, rfl, rfl, fun hbody => ⟨_, hchunk hbody, rfl, rfl, rfl⟩⟩

/-- Once a note is replaced, none of its chunks is active. -/
theorem Revision.noActiveChunk (hT : T.Linked)
    (hv : v = revision T message source now parsed noteId chunkId) (hu : T.Unused noteId chunkId)
    (hprior : v.priorNote = some prior) : (v.save T).NoActiveChunk prior.noteId := by
  have hmem : prior ∈ T.notes ∧ prior.communityId = message.communityId := by
    rw [hv] at hprior
    obtain ⟨hm, hc, -⟩ := Tables.mem_activeNotesFor.mp (Tables.mem_of_getActiveNote hprior)
    exact ⟨hm, hc⟩
  have hchunk : v.priorChunk = T.getActiveChunkForNote prior.noteId prior.communityId := by
    have h : v.priorChunk = T.activeChunkOf message.communityId v.priorNote := by rw [hv]; rfl
    rw [h, hprior, hmem.2]
    rfl
  intro x hx hid ha
  rcases (mem_save_chunks hv hu).mp hx with hx | ⟨c, hc, rfl⟩
  · rw [((mem_chunks hv).mp hx).2, hv] at hid
    exact hu.1 prior hmem.1 hid.symm
  · by_cases he : v.priorChunk.map EventChunk.chunkId = some c.chunkId
    · rw [if_pos he] at ha
      cases ha
    · rw [if_neg he] at hid ha
      rw [hchunk, hT.getActiveChunk hmem.1 hc hid ha] at he
      exact he rfl

/-- Every stage of a revision hands the message over. -/
theorem Revision.handedOver (hT : T.Linked)
    (hv : v = revision T message source now parsed noteId chunkId) (hu : T.Unused noteId chunkId)
    (hsource : ∃ s ∈ T.sourceMessages, s.sourceMessageId = source ∧
      s.messageKey = message.messageKey)
    (hprior : prior ∈ T.activeNotesFor message.externalChatId message.externalMessageId community) :
    RepoCall.Along (fun T' => T.HandedOver T' message parsed community prior)
      (v.calls message) T := by
  obtain ⟨hmem, hcommunity, hactive, -⟩ := Tables.mem_activeNotesFor.mp hprior
  by_cases hother : v.priorNote.map Note.noteId ≠ some prior.noteId
  · refine (along_kept hv hu hmem hother).mono fun T' h => ?_
    exact .of_kept (Tables.mem_activeNotesFor_of_kept hprior h.1 h.2.1)
      (.of_subset fun c hc hid _ => h.2.2 c hc hid)
  obtain ⟨n, hn, hnid⟩ := Option.map_eq_some_iff.mp (not_not.mp hother)
  have hrow : n ∈ T.notes ∧ n.communityId = message.communityId := by
    have h := hn
    rw [hv] at h
    obtain ⟨hm, hc, -⟩ := Tables.mem_activeNotesFor.mp (Tables.mem_of_getActiveNote h)
    exact ⟨hm, hc⟩
  obtain rfl : n = prior := Table.eq_of_key hrow.1 hmem hnid
  obtain rfl : message.communityId = community := hrow.2.symm.trans hcommunity
  have hfor : T.sourceIsFor message.externalChatId message.externalMessageId source = true := by
    obtain ⟨s, hs, hsid, hkey⟩ := hsource
    refine Tables.sourceIsFor_iff.mpr ⟨s, hs, hsid, ?_, ?_⟩
    · exact congrArg Prod.fst hkey
    · exact congrArg (fun k => k.2.1) hkey
  have hid : v.note.noteId = noteId := by rw [hv]; rfl
  have hkept : n ∈ (T.putNote v.note).notes :=
    Table.mem_put_of_ne hmem (by rw [hid]; exact hu.1 n hmem)
  refine along v message ?_ ?_ ?_ (fun d hd => ?_) ?_
  · exact .of_kept hprior id
  · exact .of_kept (Tables.mem_activeNotesFor_of_kept hprior rfl hkept) id
  · exact .of_kept (Tables.mem_activeNotesFor_of_kept hprior rfl hkept)
      (.of_subset fun c hc _ _ => (mem_added_chunks hv hu).mpr (.inr hc))
  · have hstill : n ∈ (((T.putNote v.note).putChunks v.chunks).markChunk .superseded
        d.chunkId).activeNotesFor message.externalChatId message.externalMessageId
        message.communityId := Tables.mem_activeNotesFor_of_kept hprior rfl hkept
    refine ⟨List.ne_nil_of_mem hstill, fun hbody _ => ?_, fun h => absurd hactive (h n hkept rfl)⟩
    refine retrievable hv hbody Table.mem_put_self (fun c hc => ?_) hfor
    refine Tables.mem_markChunk.mpr ⟨c, (mem_added_chunks hv hu).mpr (.inl hc), (if_neg ?_).symm⟩
    rw [((mem_chunks hv).mp hc).2]
    exact fun he => hu.2 d (priorChunk_row hv hd).1 he.symm
  · have hnote : v.note ∈ (v.save T).notes := (mem_save_notes hv hu).mpr (.inl rfl)
    have hfor' : (v.save T).sourceIsFor message.externalChatId message.externalMessageId source =
        true := by rwa [Tables.sourceIsFor, save_sourceMessages, ← Tables.sourceIsFor]
    refine ⟨List.ne_nil_of_mem (Tables.mem_activeNotesFor.mpr ⟨hnote, ?_⟩), fun hbody _ => ?_,
      fun _ => ⟨noActiveChunk hT hv hu hn, savedWhole hv hu hsource⟩⟩
    · rw [hv] at hfor' ⊢
      exact ⟨rfl, rfl, hfor'⟩
    · exact retrievable hv hbody hnote (fun c hc => (mem_save_chunks hv hu).mpr (.inl hc)) hfor'

end Stages

/-! ## Ingests that fail -/

section Failing

variable {kind : StoreKind} {engine : SearchEngine} {env : Env}
  {w w' : World (kind.backend engine).State} {message : InboundMessage} {parsed : ParsedNote}
  {community : String} {prior : Note}

/-- Wherever the handling of an edit ends. -/
theorem FreshOutcome.handedOver {service : DomainService} {source : String} {now : DateTime}
    {r : Except Exn IngestResult} (hT : w.rows.Linked) (hroute : message.route ≠ .draft)
    (hparse : parseNote message.payload = some parsed)
    (hsource : ∃ s ∈ w.rows.sourceMessages, s.sourceMessageId = source ∧
      s.messageKey = message.messageKey)
    (hprior : prior ∈ w.rows.activeNotesFor message.externalChatId message.externalMessageId
      community)
    (h : FreshOutcome env service message source now w r w') :
    w.rows.HandedOver w'.rows message parsed community prior := by
  cases h with
  | removed hdraft => exact absurd hdraft hroute
  | unparsed _ hnone =>
    rw [hparse] at hnone
    cases hnone
  | stopped _ hsome hids hunused hc =>
    rw [hparse] at hsome
    cases hsome
    obtain ⟨done, rest, heq, hrows⟩ := hc.rows
    rw [hrows]
    exact (heq ▸ Revision.handedOver hT rfl hunused hsource hprior).of_append
  | saved _ hsome hids hunused hp ho =>
    rw [hparse] at hsome
    cases hsome
    refine Tables.HandedOver.restatused ?_ ho.restatused
    rw [hp.rows]
    exact (Revision.handedOver hT rfl hunused hsource hprior).of_effects

theorem ingest_handedOver (hs : Sound env w) (service : DomainService)
    (hroute : message.route ≠ .draft) (hparse : parseNote message.payload = some parsed)
    (hprior : prior ∈ w.rows.activeNotesFor message.externalChatId message.externalMessageId
      community) :
    w.rows.HandedOver ((service.ingest message).exec (kind.backend engine) env w).2.rows message
      parsed community prior := by
  rcases (ingest_outcome hs service message).added with hrows |
    ⟨source, now, w₁, hunused, hnone, -, hrows, hfresh⟩
  · rw [hrows]
    exact .of_kept hprior id
  have hT := hs.linked.putSource (s := DomainService.sourceRow message source now) hunused
    (Tables.sourceForKey_eq_none.mp hnone)
  have hprior₁ : prior ∈ (w.rows.putSource (DomainService.sourceRow message source
      now)).activeNotesFor message.externalChatId message.externalMessageId community := by
    obtain ⟨hn, hc, ha, hfor⟩ := Tables.mem_activeNotesFor.mp hprior
    obtain ⟨x, hx, ho⟩ := hs.linked.note_source prior hn
    refine Tables.mem_activeNotesFor.mpr ⟨hn, hc, ha, ?_⟩
    rwa [Tables.sourceIsFor_putSource (ho.source ▸ hunused x hx)]
  rw [← hrows] at hT hprior₁
  have hsource : ∃ s ∈ w₁.rows.sourceMessages, s.sourceMessageId = source ∧
      s.messageKey = message.messageKey := by
    rw [hrows]
    exact ⟨_, Table.mem_put_self, rfl, rfl⟩
  have h := hfresh.handedOver hT hroute hparse hsource hprior₁
  refine ⟨h.active, fun hbody hno => h.chunk hbody ?_, h.replaced⟩
  rwa [hrows]

end Failing

/-- In every run, whatever fails, an edit of a message with an active note, by a note that
parses, hands the message over. -/
theorem handedOver_run (kind : StoreKind) (engine : SearchEngine) (env : Env) (ops : List Operation)
    (service : DomainService) (message : InboundMessage) (parsed : ParsedNote) (community : String)
    (prior : Note) (hroute : message.route = .note)
    (hparse : parseNote message.payload = some parsed) :
    let w := runAll (kind.backend engine) env (World.initial kind engine) ops
    w.rows.activeNotesFor message.externalChatId message.externalMessageId community = [prior] →
      w.rows.HandedOver ((service.ingest message).exec (kind.backend engine) env w).2.rows message
        parsed community prior := by
  intro w hone
  exact ingest_handedOver (sound_run env ops) service (by rw [hroute]; nofun) hparse
    (by rw [hone]; exact List.mem_singleton_self prior)

/-- An edit whose last flip fails. -/
theorem handedOver_run_unflipped :
    let env : Env := { Env.steady with
      storeFails := fun _ c => match c with
        | .markNote .. => some (.other "down")
        | _ => none }
    let service : DomainService := ⟨none⟩
    let w := runAll (StoreKind.mock.backend .plain) env (World.initial .mock .plain)
      [.ingest service (.plain .note "2026-05-09\nwalk" 0)]
    let message := InboundMessage.plain .note "2026-05-10\nrun" 1
    ∃ prior, w.rows.activeNotesFor "chat" "message" "community" = [prior] ∧
      w.rows.HandedOver ((service.ingest message).exec (StoreKind.mock.backend .plain) env w).2.rows
        message ⟨⟨2026, 5, 10, by decide⟩, "run", "2026-05-10"⟩ "community" prior := by
  intro env service w message
  have hone : (w.rows.activeNotesFor "chat" "message" "community").length = 1 := by decide +kernel
  obtain ⟨prior, hprior⟩ := List.length_eq_one_iff.mp hone
  exact ⟨prior, hprior, handedOver_run .mock .plain env _ service message _ "community" prior rfl
    (by decide +kernel) hprior⟩

end DiaryMemory
