import DiaryMemory.Settled

/-!
# Revisions in the order they arrive

Without failures of the store, a delivery not seen before decides the active content of its
message alone : a note that parses leaves its own (`HoldsNote`), a draft leaves none
(`HoldsNothing`), and so does a removal. The sequence number of an edit plays no part, so
what a list of deliveries and removals of one message leaves is what the last of them
leaves (`last_arrival_run`).
-/

namespace DiaryMemory

namespace Tables

/-- The active chunks of the notes of a message. -/
def activeChunksOf (T : Tables) (chat msg community : String) : List EventChunk :=
  T.eventChunks.rows.filter fun c => c.lifecycleState = .active ∧ c.communityId = community ∧
    T.sourceIsFor chat msg c.sourceMessageId = true

/-- No note and no chunk of the message is active. -/
structure HoldsNothing (T : Tables) (chat msg community : String) : Prop where
  notes : T.activeNotesFor chat msg community = []
  chunks : T.activeChunksOf chat msg community = []

/-- The note of this revision is the only active one of its message, and its body the only
active chunk. -/
structure HoldsNote (T : Tables) (message : InboundMessage) (parsed : ParsedNote) : Prop where
  note : ∃ n, T.activeNotesFor message.externalChatId message.externalMessageId
      message.communityId = [n] ∧ n.noteDate = parsed.noteDate ∧ n.noteText = parsed.body ∧
    ∃ s ∈ T.sourceMessages, s.sourceMessageId = n.sourceMessageId ∧
      s.messageKey = message.messageKey
  chunks : (T.activeChunksOf message.externalChatId message.externalMessageId
      message.communityId).map (fun c => (c.noteDate, c.chunkText)) =
    if parsed.body = "" then [] else [(parsed.noteDate, parsed.body)]

section Content

variable {T : Tables} {chat msg community : String}

theorem mem_activeChunksOf {c : EventChunk} : c ∈ T.activeChunksOf chat msg community ↔
    c ∈ T.eventChunks ∧ c.lifecycleState = .active ∧ c.communityId = community ∧
      T.sourceIsFor chat msg c.sourceMessageId = true := by
  simp [activeChunksOf]

/-- An active chunk is of an active note. -/
theorem Linked.note_of_activeChunk (hT : T.Linked) {c : EventChunk}
    (hc : c ∈ T.activeChunksOf chat msg community) :
    ∃ n ∈ T.activeNotesFor chat msg community, ChunkOf n c := by
  obtain ⟨hcm, ha, hcc, hfor⟩ := mem_activeChunksOf.mp hc
  obtain ⟨n, hn, ho⟩ := hT.chunk_note c hcm
  exact ⟨n, mem_activeNotesFor.mpr ⟨hn, ho.community.trans hcc,
    hT.active_chunk c hcm ha n hn ho.note, ho.source ▸ hfor⟩, ho⟩

theorem Linked.holdsNothing_iff (hT : T.Linked) :
    T.HoldsNothing chat msg community ↔ T.activeNotesFor chat msg community = [] := by
  refine ⟨fun h => h.notes, fun hnone => ⟨hnone, ?_⟩⟩
  refine List.eq_nil_iff_forall_not_mem.mpr fun c hc => ?_
  obtain ⟨n, hn, -⟩ := hT.note_of_activeChunk hc
  rw [hnone] at hn
  cases hn

/-- A list without repetitions of one element. -/
theorem eq_singleton_of_nodup {α : Type} {l : List α} {a : α} (hl : l.Nodup) (ha : a ∈ l)
    (hall : ∀ b ∈ l, b = a) : l = [a] := by
  match l, hl with
  | [b], _ => rw [hall b List.mem_cons_self]
  | b :: c :: l, hl =>
    have hbc : b = c := (hall b (by simp)).trans (hall c (by simp)).symm
    simp [hbc] at hl

/-- The active chunks beside the only active note. -/
theorem Settled.chunks_of_note (h : T.Settled) (hT : T.Linked) {n : Note}
    (hone : T.activeNotesFor chat msg community = [n]) :
    (T.activeChunksOf chat msg community).map (fun c => (c.noteDate, c.chunkText)) =
      if n.noteText = "" then [] else [(n.noteDate, n.noteText)] := by
  have hnote : n ∈ T.activeNotesFor chat msg community := by rw [hone]; exact List.mem_singleton_self n
  obtain ⟨hn, hnc, hna, hfor⟩ := mem_activeNotesFor.mp hnote
  have hof : ∀ c ∈ T.activeChunksOf chat msg community, ChunkOf n c := by
    intro c hc
    obtain ⟨m, hm, ho⟩ := hT.note_of_activeChunk hc
    rw [hone, List.mem_singleton] at hm
    exact hm ▸ ho
  split
  · next htext =>
    rw [List.map_eq_nil_iff]
    refine List.eq_nil_iff_forall_not_mem.mpr fun c hc => ?_
    exact (hof c hc).nonempty htext
  · next htext =>
    obtain ⟨c, hc, hid⟩ := h.has_chunk n hn htext
    have ho := hT.chunkOf hn hc hid.symm
    have hmem : c ∈ T.activeChunksOf chat msg community := by
      refine mem_activeChunksOf.mpr ⟨hc, ?_, ho.community.symm.trans hnc, ho.source ▸ hfor⟩
      rw [h.in_step n hn c hc hid, hna]
    have hsingle : T.activeChunksOf chat msg community = [c] :=
      eq_singleton_of_nodup (T.eventChunks.rows_nodup.filter _) hmem fun d hd =>
        hT.chunk_unique d (mem_activeChunksOf.mp hd).1 c hc ((hof d hd).note.symm.trans hid.symm)
    rw [hsingle, List.map_singleton, ho.noteDate, ho.text]

end Content

end Tables

section Reliable

variable {kind : StoreKind} {engine : SearchEngine} {env : Env}
  {w w' : World (kind.backend engine).State}

/-! ## One delivery -/

/-- Calls that are never refused all take effect. -/
theorem Completes.effects {α : Type} {V : α → Prop} {cs : List RepoCall} {r : Except Exn α}
    (henv : env.Reliable) (hcs : ∀ c ∈ cs, ∀ T : Tables, ¬ c.Refused kind T)
    (h : Completes env cs w V r w') : w'.rows = RepoCall.effects cs w.rows := by
  cases r with
  | ok a => exact h.2.rows
  | error e =>
    obtain ⟨done, c, rest, w₁, rfl, hp, hr⟩ := h
    exact absurd (hr.refused henv) (hcs c (by simp) _)

theorem not_refused_removalCalls {T₀ : Tables} {chat msg community : String}
    (hcommunity : community ≠ "") {note : Option Note} :
    ∀ c ∈ removalCalls T₀ chat msg community note, ∀ T : Tables, ¬ c.Refused kind T :=
  fun c hc T href => hcommunity (refused_removalCalls c hc T href)

theorem not_refused_calls {message : InboundMessage} (hcommunity : message.communityId ≠ "")
    (v : Revision) : ∀ c ∈ v.calls message, ∀ T : Tables, ¬ c.Refused kind T :=
  fun c hc T href => hcommunity (refused_calls v c hc T href)

/-- A flip of the active note leaves none. -/
theorem Tables.Settled.activeNotesFor_flip {T : Tables} (h : T.Settled) {chat msg community : String}
    {chunk : Option EventChunk} {state : LifecycleState} (hstate : state ≠ .active) :
    (T.flip state (T.getActiveNoteForExternalMessage chat msg community) chunk).activeNotesFor
      chat msg community = [] := by
  refine List.eq_nil_iff_forall_not_mem.mpr fun n hn => ?_
  obtain ⟨hmem, hne⟩ := (mem_activeNotesFor_flip hstate).mp hn
  cases hget : T.getActiveNoteForExternalMessage chat msg community with
  | none =>
    rw [getActiveNote_eq_none.mp hget] at hmem
    cases hmem
  | some m =>
    rw [hget, h.one_active chat msg community m (mem_of_getActiveNote hget) n hmem] at hne
    exact hne rfl

/-- A saved revision is the only active one. -/
theorem Tables.Settled.activeNotesFor_save {T : Tables} {message : InboundMessage} {source : String}
    {now : DateTime} {parsed : ParsedNote} {noteId chunkId : String} {v : Revision} (h : T.Settled)
    (hv : v = revision T message source now parsed noteId chunkId) (hu : T.Unused noteId chunkId)
    (hfor : T.sourceIsFor message.externalChatId message.externalMessageId source = true) :
    (v.save T).activeNotesFor message.externalChatId message.externalMessageId
      message.communityId = [v.note] := by
  refine eq_singleton_of_nodup ((v.save T).notes.rows_nodup.filter _) ?_ fun n hn => ?_
  · refine mem_activeNotesFor.mpr ⟨(Revision.mem_save_notes hv hu).mpr (.inl rfl), ?_⟩
    rw [sourceIsFor, Revision.save_sourceMessages, ← sourceIsFor, hv]
    exact ⟨rfl, rfl, hfor⟩
  · rcases Revision.mem_activeNotesFor_save hv hu hn with ⟨rfl, -⟩ | ⟨hold, hne⟩
    · rfl
    · rw [h.prior hv hold] at hne
      exact absurd rfl hne

/-- What is active after handling a message. -/
inductive FreshOutcome.Decided (message : InboundMessage) (source : String) (T T' : Tables) : Prop
  | removed (hroute : message.route = .draft)
      (hnotes : T'.activeNotesFor message.externalChatId message.externalMessageId
        message.communityId = [])
  | unparsed (hroute : message.route ≠ .draft) (hparse : parseNote message.payload = none)
      (hrows : T' = T)
  | saved {parsed : ParsedNote} {n : Note} (hroute : message.route ≠ .draft)
      (hparse : parseNote message.payload = some parsed)
      (hnotes : T'.activeNotesFor message.externalChatId message.externalMessageId
        message.communityId = [n])
      (hsource : n.sourceMessageId = source) (hdate : n.noteDate = parsed.noteDate)
      (htext : n.noteText = parsed.body)

theorem FreshOutcome.decided {service : DomainService} {message : InboundMessage} {source : String}
    {now : DateTime} {r : Except Exn IngestResult} (henv : env.Reliable)
    (hcommunity : message.communityId ≠ "") (hsettled : w.rows.Settled)
    (hfor : w.rows.sourceIsFor message.externalChatId message.externalMessageId source = true)
    (h : FreshOutcome env service message source now w r w') :
    FreshOutcome.Decided message source w.rows w'.rows ∧
      w'.rows.sourceMessages = w.rows.sourceMessages := by
  cases h with
  | removed hroute hc =>
    have hrows := hc.effects henv (not_refused_removalCalls hcommunity)
    rw [effects_removalCalls] at hrows
    rw [hrows]
    exact ⟨.removed hroute (hsettled.activeNotesFor_flip nofun), Tables.flip_sourceMessages⟩
  | unparsed hroute hparse => exact ⟨.unparsed hroute hparse rfl, rfl⟩
  | stopped hroute hparse hids hunused hc =>
    have hrows := hc.effects henv (not_refused_calls hcommunity _)
    rw [Revision.effects_calls] at hrows
    rw [hrows]
    exact ⟨.saved hroute hparse (hsettled.activeNotesFor_save rfl hunused hfor) rfl rfl rfl,
      Revision.save_sourceMessages _ _⟩
  | saved hroute hparse hids hunused hp ho =>
    have hrows := hp.rows
    rw [Revision.effects_calls] at hrows
    have hr := ho.restatused
    rw [hrows] at hr
    have hnotes := hr.activeNotesFor message.externalChatId message.externalMessageId
      message.communityId
    rw [hsettled.activeNotesFor_save rfl hunused hfor] at hnotes
    exact ⟨.saved hroute hparse hnotes rfl rfl rfl,
      hr.sources.trans (Revision.save_sourceMessages _ _)⟩

/-! ## The order of arrival -/

/-- A delivery of a revision of the message, a note that parses or a draft, or a removal of
the message. -/
def Operation.Concerns (chat msg community : String) : Operation → Prop
  | .ingest _ message => message.externalChatId = chat ∧ message.externalMessageId = msg ∧
    message.communityId = community ∧
    (message.route = .draft ∨ message.route = .note ∧ (parseNote message.payload).isSome)
  | .delete chat' target community' => chat' = chat ∧ target = msg ∧ community' = community
  | _ => False

/-- The message state a request delivers. -/
def Operation.delivered : Operation → Option MessageKey
  | .ingest _ message => some message.messageKey
  | _ => none

/-- What is active after a request : the note it delivers, or nothing. -/
def Tables.HoldsOnly (T : Tables) (chat msg community : String) : Operation → Prop
  | .ingest _ message => match message.route, parseNote message.payload with
    | .note, some parsed => T.HoldsNote message parsed
    | _, _ => T.HoldsNothing chat msg community
  | _ => T.HoldsNothing chat msg community

variable {chat msg community : String}

theorem Operation.Concerns.onContent {o : Operation} (h : o.Concerns chat msg community) :
    o.OnContent := by
  cases o <;> trivial

/-- What one delivery not seen before leaves. -/
theorem ingest_decided (henv : env.Reliable) (hs : Sound env w) (hsettled : w.rows.Settled)
    (service : DomainService) {message : InboundMessage} (hcommunity : message.communityId ≠ "")
    (hnew : w.rows.sourceForKey message.messageKey = none) :
    ∃ source now, FreshOutcome.Decided message source
        (w.rows.putSource (DomainService.sourceRow message source now))
        ((service.ingest message).exec (kind.backend engine) env w).2.rows ∧
      ((service.ingest message).exec (kind.backend engine) env w).2.rows.sourceMessages =
        (w.rows.putSource (DomainService.sourceRow message source now)).sourceMessages := by
  have hout := ingest_outcome hs service message
  generalize ((service.ingest message).exec (kind.backend engine) env w).1 = r at hout
  generalize ((service.ingest message).exec (kind.backend engine) env w).2 = w' at hout ⊢
  cases hout with
  | refused hl hr => exact absurd (hr.refused henv) id
  | replayed hexisting =>
    rw [hnew] at hexisting
    cases hexisting
  | @fresh source now _ w₁ _ hnone hunused hp ho =>
    have hrows := hp.rows_added hnone
    have hsettled₁ := hsettled.putSource hs.linked
      (s := DomainService.sourceRow message source now) hunused
    rw [← hrows] at hsettled₁
    refine ⟨source, now, ?_⟩
    rw [← hrows]
    refine ho.decided henv hcommunity hsettled₁ ?_
    rw [hrows]
    exact Tables.sourceIsFor_iff.mpr ⟨_, Table.mem_put_self, rfl, rfl, rfl⟩

/-- The delivered state becomes a source row, and no other. -/
theorem Operation.keys_run (henv : env.Reliable) (hs : Sound env w) (hsettled : w.rows.Settled)
    (hcommunity : community ≠ "") {o : Operation} (h : o.Concerns chat msg community)
    (hnew : ∀ key ∈ o.delivered, w.rows.sourceForKey key = none) {key : MessageKey}
    (hkey : o.delivered ≠ some key) (hnone : w.rows.sourceForKey key = none) :
    (o.run (kind.backend engine) env w).rows.sourceForKey key = none := by
  rw [Tables.sourceForKey_eq_none] at hnone ⊢
  cases o with
  | delete chat' target community' =>
    obtain ⟨rfl, rfl, rfl⟩ := h
    have hrows := (delete_outcome hs chat' target community').effects henv
      (not_refused_removalCalls hcommunity)
    rw [effects_removalCalls] at hrows
    intro s hsm
    refine hnone s ?_
    have hsources := congrArg Tables.sourceMessages hrows
    rw [Tables.flip_sourceMessages] at hsources
    exact hsources ▸ hsm
  | ingest service message =>
    obtain ⟨rfl, rfl, rfl, -⟩ := h
    obtain ⟨source, now, -, hsources⟩ := ingest_decided henv hs hsettled service hcommunity
      (hnew _ rfl)
    intro s hsm
    rw [show (Operation.run (kind.backend engine) env w (.ingest service message)).rows.sourceMessages
      = _ from hsources] at hsm
    rcases Table.mem_put.mp hsm with rfl | ⟨hsm, -⟩
    · exact fun he => hkey (congrArg some he)
    · exact hnone s hsm
  | _ => exact absurd h id

/-- One request decides what is active. -/
theorem Operation.holdsOnly (henv : env.Reliable) (hs : Sound env w) (hsettled : w.rows.Settled)
    (hcommunity : community ≠ "") {o : Operation} (h : o.Concerns chat msg community)
    (hnew : ∀ key ∈ o.delivered, w.rows.sourceForKey key = none) :
    (o.run (kind.backend engine) env w).rows.HoldsOnly chat msg community o := by
  have hafter : (o.run (kind.backend engine) env w).rows.Settled :=
    o.settled henv hs hsettled h.onContent
  have hT : (o.run (kind.backend engine) env w).rows.Linked := (run_spec hs o).1.linked
  cases o with
  | delete chat' target community' =>
    obtain ⟨rfl, rfl, rfl⟩ := h
    have hrows := (delete_outcome hs chat' target community').effects henv
      (not_refused_removalCalls hcommunity)
    rw [effects_removalCalls] at hrows
    refine hT.holdsNothing_iff.mpr ?_
    refine (congrArg (fun T : Tables => T.activeNotesFor chat' target community') hrows).trans ?_
    exact hsettled.activeNotesFor_flip nofun
  | ingest service message =>
    obtain ⟨rfl, rfl, rfl, hroute⟩ := h
    obtain ⟨source, now, hdecided, hsources⟩ := ingest_decided henv hs hsettled service hcommunity
      (hnew _ rfl)
    cases hdecided with
    | removed hdraft hnotes =>
      rw [Tables.HoldsOnly, hdraft]
      exact hT.holdsNothing_iff.mpr hnotes
    | unparsed hne hparse =>
      rcases hroute with hdraft | ⟨-, hsome⟩
      · exact absurd hdraft hne
      · rw [hparse] at hsome
        cases hsome
    | @saved parsed n hne hparse hnotes hsource hdate htext =>
      obtain ⟨hnote, -⟩ := hroute.resolve_left hne
      rw [Tables.HoldsOnly, hnote, hparse]
      refine ⟨⟨n, hnotes, hdate, htext, DomainService.sourceRow message source now, ?_,
        hsource.symm, rfl⟩, ?_⟩
      · exact hsources ▸ Table.mem_put_self
      · rw [← hdate, ← htext]
        exact hafter.chunks_of_note hT hnotes
  | _ => exact absurd h id

/-- Without failures, in every run that ends in deliveries and removals of one message, each
message state delivered for the first time, the last of them decides what is active. -/
theorem last_arrival_run (kind : StoreKind) (engine : SearchEngine) (env : Env)
    (henv : env.Reliable) (before arrivals : List Operation) (last : Operation)
    (hbefore : ∀ o ∈ before, o.OnContent) (chat msg community : String) (hcommunity : community ≠ "")
    (hconcerns : ∀ o ∈ arrivals ++ [last], o.Concerns chat msg community)
    (hdistinct : ((arrivals ++ [last]).filterMap Operation.delivered).Nodup)
    (hnew : ∀ key ∈ (arrivals ++ [last]).filterMap Operation.delivered,
      (runAll (kind.backend engine) env (World.initial kind engine) before).rows.sourceForKey key =
        none) :
    (runAll (kind.backend engine) env (World.initial kind engine)
      (before ++ arrivals ++ [last])).rows.HoldsOnly chat msg community last := by
  rw [List.append_assoc, runAll_append]
  have hs : Sound env (runAll (kind.backend engine) env (World.initial kind engine) before) :=
    sound_run env before
  have hsettled : (runAll (kind.backend engine) env (World.initial kind engine)
      before).rows.Settled := settled_run henv hbefore
  generalize runAll (kind.backend engine) env (World.initial kind engine) before = w at *
  induction arrivals generalizing w with
  | nil =>
    refine Operation.holdsOnly henv hs hsettled hcommunity (hconcerns last (by simp)) fun key hkey => ?_
    exact hnew key (List.mem_filterMap.mpr ⟨last, by simp, hkey⟩)
  | cons o arrivals ih =>
    have ho := hconcerns o (by simp)
    have hfirst : ∀ key ∈ o.delivered, w.rows.sourceForKey key = none := fun key hkey =>
      hnew key (List.mem_filterMap.mpr ⟨o, by simp, hkey⟩)
    have hsplit : (o :: arrivals ++ [last]).filterMap Operation.delivered =
        o.delivered.toList ++ (arrivals ++ [last]).filterMap Operation.delivered := by
      rw [List.cons_append, List.filterMap_cons]
      cases o.delivered <;> rfl
    rw [hsplit] at hdistinct
    refine ih (fun d hd => hconcerns d (List.mem_cons_of_mem _ hd))
      (List.nodup_append.mp hdistinct).2.1 (o.run _ env w) (fun key hkey => ?_)
      (Operation.run_spec hs o).1 (o.settled henv hs hsettled ho.onContent)
    refine o.keys_run henv hs hsettled hcommunity ho hfirst (fun he => ?_)
      (hnew key (hsplit ▸ List.mem_append_right _ hkey))
    exact (List.nodup_append.mp hdistinct).2.2 key (by simp [he]) key hkey rfl

/-- A late edit, and a note delivered after its removal. -/
theorem last_arrival_run_late :
    (runAll (StoreKind.mock.backend .plain) .steady (World.initial .mock .plain)
      ([] ++ [.ingest ⟨none⟩ (.plain .note "2026-05-09\nrun" 2), .delete "chat" "message" "community"] ++
        [.ingest ⟨none⟩ (.plain .note "2026-05-09\nwalk" 1)])).rows.HoldsOnly "chat" "message"
      "community" (.ingest ⟨none⟩ (.plain .note "2026-05-09\nwalk" 1)) := by
  refine last_arrival_run .mock .plain .steady Env.steady_reliable [] _ _ (List.forall_mem_nil _)
    "chat" "message" "community" (by decide) (fun o ho => ?_) (by decide +kernel)
    (fun key _ => Tables.sourceForKey_eq_none.mpr fun _ h => absurd h Table.not_mem_empty)
  simp only [List.cons_append, List.nil_append, List.mem_cons, List.not_mem_nil, or_false] at ho
  rcases ho with rfl | rfl | rfl
  · exact ⟨rfl, rfl, rfl, .inr ⟨rfl, by decide +kernel⟩⟩
  · exact ⟨rfl, rfl, rfl⟩
  · exact ⟨rfl, rfl, rfl, .inr ⟨rfl, by decide +kernel⟩⟩

/-- An older edit that arrives later replaces the newer one, and is active again after the
removal of the newer one. -/
theorem stale_arrival_active :
    ((runAll (StoreKind.mock.backend .plain) .steady (World.initial .mock .plain)
      [.ingest ⟨none⟩ (.plain .note "2026-05-09\nrun" 2),
        .ingest ⟨none⟩ (.plain .note "2026-05-09\nwalk" 1)]).rows.activeNotesFor "chat" "message"
      "community").map Note.noteText = ["walk"] ∧
    ((runAll (StoreKind.mock.backend .plain) .steady (World.initial .mock .plain)
      [.ingest ⟨none⟩ (.plain .note "2026-05-09\nrun" 2), .delete "chat" "message" "community",
        .ingest ⟨none⟩ (.plain .note "2026-05-09\nwalk" 1)]).rows.activeNotesFor "chat" "message"
      "community").map Note.noteText = ["walk"] := by
  decide +kernel

end Reliable

end DiaryMemory
