import DiaryMemory.Exposure
import DiaryMemory.Grammar
import DiaryMemory.NoteLines
import DiaryMemory.Replay

/-!
# No text is lost

Serving a new message adds its source row first (`IngestOutcome.sources`), and the calls after it
leave the source rows alone. So a text that is not blank is either a command that persists
nothing, or ends up in one new row : whole as a draft, or line by line as a note
(`captured_run`). The reply to a note seen before is made from the row persisted then, whatever
route it came by (`replies_iff`).
-/

namespace DiaryMemory

/-- The calls that change source rows. -/
def RepoCall.OnSources : RepoCall → Prop
  | getOrCreateSourceMessage _ | hardDeleteSourceMessage .. => True
  | _ => False

theorem RepoCall.effect_sourceMessages {c : RepoCall} (h : ¬ c.OnSources) (T : Tables) :
    (c.effect T).sourceMessages = T.sourceMessages := by
  cases c with
  | getOrCreateSourceMessage | hardDeleteSourceMessage => exact absurd trivial h
  | _ => rfl

theorem RepoCall.effects_sourceMessages {cs : List RepoCall} (h : ∀ c ∈ cs, ¬ c.OnSources)
    (T : Tables) : (RepoCall.effects cs T).sourceMessages = T.sourceMessages := by
  induction cs generalizing T with
  | nil => rfl
  | cons c cs ih =>
    exact (ih (fun d hd => h d (List.mem_cons_of_mem _ hd)) _).trans
      (effect_sourceMessages (h c List.mem_cons_self) T)

section Outcomes

variable {kind : StoreKind} {engine : SearchEngine} {env : Env}
  {w w' : World (kind.backend engine).State} {service : DomainService} {message : InboundMessage}

theorem Completes.sourceMessages {α : Type} {cs : List RepoCall} {V : α → Prop} {r : Except Exn α}
    (h : Completes env cs w V r w') (hcs : ∀ c ∈ cs, ¬ c.OnSources) :
    w'.rows.sourceMessages = w.rows.sourceMessages := by
  obtain ⟨done, rest, rfl, hrows⟩ := h.rows
  rw [hrows, RepoCall.effects_sourceMessages fun c hc => hcs c (List.mem_append_left _ hc)]

/-- Handling a message whose source row is there adds no other. -/
theorem FreshOutcome.sourceMessages {source : String} {now : DateTime} {r : Except Exn IngestResult}
    (h : FreshOutcome env service message source now w r w') :
    w'.rows.sourceMessages = w.rows.sourceMessages := by
  have hcalls : ∀ v : Revision, ∀ c ∈ v.calls message, ¬ c.OnSources := fun v =>
    v.forall_mem_calls id (fun _ => id) id id fun _ => ⟨id, id⟩
  cases h with
  | removed hroute hc =>
    exact hc.sourceMessages (forall_mem_lookups id (fun _ => id)
      (forall_mem_flipCalls fun _ => ⟨id, id⟩))
  | unparsed => rfl
  | stopped hroute hparse hids hunused hc => exact hc.sourceMessages (hcalls _)
  | saved hroute hparse hids hunused hp ho =>
    rw [ho.restatused.sources, hp.rows, RepoCall.effects_sourceMessages (hcalls _)]

/-- A message seen for the first time has its row added, unless the store fails to add it. -/
theorem IngestOutcome.sources {r : Except Exn IngestResult}
    (h : IngestOutcome env service message w r w')
    (hnew : w.rows.sourceForKey message.messageKey = none) :
    (∃ source now, w'.rows.sourceMessages.rows =
      w.rows.sourceMessages.rows ++ [DomainService.sourceRow message source now]) ∨
    w'.rows = w.rows ∧ ∃ e n s, r = .error e ∧
      env.storeFails n (.getOrCreateSourceMessage s) = some e := by
  cases h with
  | refused hl hr =>
    obtain ⟨n, -, hfails | ⟨-, hrefused⟩⟩ := hr.why
    · exact .inr ⟨hr.rows.trans hl.rows, _, n, _, rfl, hfails⟩
    · exact absurd hrefused id
  | replayed hexisting => exact absurd (hnew.symm.trans hexisting) nofun
  | @fresh source now r w₁ w' hnone hunused hp ho =>
    refine .inl ⟨source, now, ?_⟩
    rw [ho.sourceMessages, hp.rows_added hnone]
    exact Table.putRow_of_fresh hunused

/-- The routes that ingest a message. -/
def RouteKind.Persists (route : RouteKind) : Prop := route = .note ∨ route = .draft

theorem AnswerCall.not_onSources {community : String} {c : RepoCall} {T : Tables}
    (h : AnswerCall community (.repo c) T) : ¬ c.OnSources := by
  cases c with
  | getOrCreateSourceMessage | hardDeleteSourceMessage => exact fun _ => h
  | _ => exact id

/-- Serving any other message leaves the source rows. -/
theorem dispatch_sourceMessages (hs : Sound env w) (dispatcher : Dispatcher)
    (hroute : ¬ message.route.Persists) :
    ((dispatcher.dispatch message).exec (kind.backend engine) env w).2.rows.sourceMessages =
      w.rows.sourceMessages := by
  obtain ⟨-, es, -, ht⟩ := Operation.run_spec hs (.dispatch dispatcher message)
  refine (ht.keeps (I := fun T => T.sourceMessages = w.rows.sourceMessages)
    (fun c T _ _ _ hc hT => (RepoCall.effect_sourceMessages ?_ T).trans hT) rfl).1
  have h : DispatchCall env dispatcher message w.rows (.repo c) T := hc
  unfold DispatchCall at h
  cases hr : message.route <;> rw [hr] at h
  case note => exact absurd (.inl hr) hroute
  case draft => exact absurd (.inr hr) hroute
  case ask =>
    rcases h with h | ⟨_, h, -⟩
    · exact h.not_onSources
    · cases h
  case chat => exact AnswerCall.not_onSources h
  case drafts | export_ =>
    exact (h.answerCall : AnswerCall message.communityId (.repo c) T).not_onSources
  case delete =>
    cases c with
    | getOrCreateSourceMessage | hardDeleteSourceMessage => exact fun _ => h
    | _ => exact id
  case sources => cases h
  all_goals exact absurd h id

end Outcomes

/-! ## Routing -/

/-- What is not read as plain text is a command text, with its payload. -/
theorem parseCommand_command {text : String} (h : (parseCommand (some text)).1 ≠ .unknown) :
    ∃ r, CommandText text (parseCommand (some text)).1 r ∧
      PayloadOf r (parseCommand (some text)).2 := by
  have hbare : ¬ BareNewline text := fun hbare => h (by rw [(parseCommand_bareNewline hbare).1])
  have hcommand : ∃ route r, CommandText text route r := by
    by_contra hnone
    push Not at hnone
    exact h (by rw [parseCommand_of_not_commandText hnone])
  obtain ⟨route, r, hr⟩ := hcommand
  obtain ⟨hroute, hpayload⟩ := parseCommand_of_commandText hr hbare
  exact ⟨r, hroute ▸ hr, hpayload⟩

theorem CommandText.route {text : String} {route : RouteKind} {r : List Char}
    (h : CommandText text route r) : route ∈ commandTokens.map Prod.snd := by
  obtain ⟨c, _, _, hc, _⟩ := h
  obtain ⟨l, l', hl, -⟩ := List.lookup_eq_some_iff.mp hc
  exact List.mem_map.mpr ⟨(c, route), by simp [hl], rfl⟩

theorem resolveRoute_command {text : String} (h : (parseCommand (some text)).1 ≠ .unknown) :
    resolveRoute (some text) =
      ⟨(parseCommand (some text)).1, (parseCommand (some text)).2, .command, none⟩ := by
  rw [resolveRoute]
  exact if_pos (.inl h)

/-- Plain text goes to the draft floor, unless it is blank. -/
theorem resolveRoute_plain {text : String} (hne : PyText.strip text ≠ "")
    (h : (parseCommand (some text)).1 = .unknown) :
    resolveRoute (some text) = ⟨.draft, text, .heuristic, some .low⟩ := by
  rw [resolveRoute]
  refine (if_neg ?_).trans ?_
  · rintro (hcommand | hblank)
    · exact hcommand h
    · exact hne hblank
  · simp only [classifyPlainText, Option.getD_some, if_neg hne]

/-- What serving a new text may come to. -/
inductive Captured (env : Env) (message : InboundMessage) (text : String) (T T' : Tables) :
    Except Exn DispatchResult → Prop
  /-- A command that persists nothing. -/
  | served {res : Except Exn DispatchResult} {r : List Char}
      (hcommand : CommandText text message.route r) (hroute : ¬ message.route.Persists)
      (hsame : T'.sourceMessages = T.sourceMessages) : Captured env message text T T' res
  /-- Plain text, kept as it is. -/
  | draft {res : Except Exn DispatchResult} {row : SourceMessage}
      (hplain : (parseCommand (some text)).1 = .unknown) (hroute : message.route = .draft)
      (happend : T'.sourceMessages.rows = T.sourceMessages.rows ++ [row])
      (hkey : row.messageKey = message.messageKey) (hdetected : row.detectedRoute = .draft)
      (hraw : row.rawText = text) : Captured env message text T T' res
  /-- A note, kept line by line. -/
  | note {res : Except Exn DispatchResult} {r : List Char} {row : SourceMessage}
      (hcommand : CommandText text .note r) (hpayload : PayloadOf r (parseCommand (some text)).2)
      (hroute : message.route = .note)
      (happend : T'.sourceMessages.rows = T.sourceMessages.rows ++ [row])
      (hkey : row.messageKey = message.messageKey) (hdetected : row.detectedRoute = .note)
      (hlines : KeptLines message.receivedAt.date
        (splitNonEmptyLines (parseCommand (some text)).2) (splitNonEmptyLines row.rawText)) :
      Captured env message text T T' res
  /-- The store failed to take the row, and the reply says so. -/
  | refused {e : Exn} {n : Nat} {s : SourceMessage} (hsame : T' = T)
      (hfails : env.storeFails n (.getOrCreateSourceMessage s) = some e) :
      Captured env message text T T' (.error e)

section Texts

variable {kind : StoreKind} {engine : SearchEngine} {env : Env}
  {w : World (kind.backend engine).State} {dispatcher : Dispatcher} {message : InboundMessage}

/-- The message the service ingests : the payload of a note is normalized first. -/
def InboundMessage.ingested (message : InboundMessage) : InboundMessage :=
  if message.route = .note then
    { message with payload := normalizeNotePayload message.payload message.receivedAt.date }
  else message

/-- The reply made from the result of an ingest. -/
def replyTo (message : InboundMessage) (result : IngestResult) : Except Exn DispatchResult :=
  if message.route = .note then
    (formatIngestReply result).map fun replyText =>
      { replyText, route := .note, metadata := Dispatcher.ingestMetadata message result }
  else
    .ok { replyText := formatDraftReply result, route := .draft
          metadata := Dispatcher.ingestMetadata message result }

/-- Serving a note or a draft is an ingest, and the reply to what it returned. -/
theorem exec_dispatch_persists (dispatcher : Dispatcher) (w : World (kind.backend engine).State)
    (hroute : message.route.Persists) :
    ((dispatcher.dispatch message).exec (kind.backend engine) env w) =
      (((dispatcher.domain.ingest message.ingested).exec (kind.backend engine) env w).1.bind
        (replyTo message.ingested),
      ((dispatcher.domain.ingest message.ingested).exec (kind.backend engine) env w).2) := by
  have hingested : message.ingested.route = message.route := by
    unfold InboundMessage.ingested
    split <;> rfl
  unfold replyTo
  rw [hingested, Dispatcher.dispatch]
  rcases hroute with hroute | hroute
  · rw [hroute, InboundMessage.ingested, if_pos hroute]
    unfold Dispatcher.dispatchNote
    dsimp only
    generalize normalizeNotePayload message.payload message.receivedAt.date = payload
    cases hr : (dispatcher.domain.ingest { message with payload := payload }).exec
        (kind.backend engine) env w with
    | mk r w' =>
      cases r with
      | error e =>
        rw [Proc.exec_bind_error hr]
        rfl
      | ok result =>
        rw [Proc.exec_bind_ok hr]
        cases hreply : formatIngestReply result <;>
        · simp only [Except.bind, if_true, hreply]
          rfl
  · rw [hroute, InboundMessage.ingested, if_neg (by simp [hroute])]
    unfold Dispatcher.dispatchDraft
    cases hr : (dispatcher.domain.ingest message).exec (kind.backend engine) env w with
    | mk r w' =>
      cases r with
      | error e =>
        rw [Proc.exec_bind_error hr]
        rfl
      | ok result =>
        rw [Proc.exec_bind_ok hr]
        rfl

/-- A persisted text leaves its row, or the store fails. -/
theorem dispatch_sources (hs : Sound env w) (dispatcher : Dispatcher)
    (hroute : message.route.Persists) (hnew : w.rows.sourceForKey message.messageKey = none) :
    let out := (dispatcher.dispatch message).exec (kind.backend engine) env w
    (∃ source now, out.2.rows.sourceMessages.rows =
      w.rows.sourceMessages.rows ++ [DomainService.sourceRow message.ingested source now]) ∨
    out.2.rows = w.rows ∧ ∃ e n s, out.1 = .error e ∧
      env.storeFails n (.getOrCreateSourceMessage s) = some e := by
  intro out
  have hkey : w.rows.sourceForKey message.ingested.messageKey = none := by
    unfold InboundMessage.ingested
    split <;> exact hnew
  have hout : out = _ := exec_dispatch_persists dispatcher w hroute
  rw [hout]
  rcases (ingest_outcome hs dispatcher.domain message.ingested).sources hkey with
    ⟨source, now, happend⟩ | ⟨hsame, e, n, s, herror, hfails⟩
  · exact .inl ⟨source, now, happend⟩
  · exact .inr ⟨hsame, e, n, s, by rw [herror]; rfl, hfails⟩

/-- In every run, a text that is not blank and whose message is new is either a command that
persists nothing, or is added to the source rows, once : plain text as a draft that is the text
itself, a note line by line. Where the store fails to add it, serving it raises. -/
theorem captured_run (kind : StoreKind) (engine : SearchEngine) (env : Env) (ops : List Operation)
    (dispatcher : Dispatcher) (message : InboundMessage) (text : String) :
    let w := runAll (kind.backend engine) env (World.initial kind engine) ops
    let inbound := message.withText (some text)
    let out := (dispatcher.dispatch inbound).exec (kind.backend engine) env w
    PyText.strip text ≠ "" → w.rows.sourceForKey inbound.messageKey = none →
      Captured env inbound text w.rows out.2.rows out.1 := by
  intro w inbound out hne hnew
  have hs : Sound env w := sound_run env ops
  by_cases hplain : (parseCommand (some text)).1 = .unknown
  · have hresolved := resolveRoute_plain hne hplain
    have hroute : inbound.route = .draft := congrArg ResolvedRoute.route hresolved
    have hpayload : inbound.payload = text := congrArg ResolvedRoute.payload hresolved
    have hingested : inbound.ingested = inbound := if_neg (by simp [hroute])
    rcases dispatch_sources hs dispatcher (.inr hroute) hnew with
      ⟨source, now, happend⟩ | ⟨hsame, e, n, s, herror, hfails⟩
    · rw [hingested] at happend
      exact .draft hplain hroute happend rfl hroute hpayload
    · exact herror ▸ .refused hsame hfails
  · have hresolved := resolveRoute_command hplain
    have hroute : inbound.route = (parseCommand (some text)).1 :=
      congrArg ResolvedRoute.route hresolved
    have hpayload : inbound.payload = (parseCommand (some text)).2 :=
      congrArg ResolvedRoute.payload hresolved
    obtain ⟨r, hcommand, hrest⟩ := parseCommand_command hplain
    have hdraft : (parseCommand (some text)).1 ≠ .draft := fun h => by
      have hmem := hcommand.route
      rw [h] at hmem
      exact absurd hmem (by decide)
    by_cases hnote : (parseCommand (some text)).1 = .note
    · rw [hnote] at hcommand hroute
      have hingested : inbound.ingested = { inbound with
          payload := normalizeNotePayload inbound.payload inbound.receivedAt.date } :=
        if_pos hroute
      rcases dispatch_sources hs dispatcher (.inl hroute) hnew with
        ⟨source, now, happend⟩ | ⟨hsame, e, n, s, herror, hfails⟩
      · rw [hingested] at happend
        refine .note hcommand hrest hroute happend rfl hroute ?_
        rw [← hpayload]
        exact keptLines _ _
      · exact herror ▸ .refused hsame hfails
    · have hpersists : ¬ inbound.route.Persists := by
        rw [hroute]
        exact fun h => h.elim hnote hdraft
      rw [← hroute] at hcommand
      exact .served hcommand hpersists (dispatch_sourceMessages hs dispatcher hpersists)

/-- A slash word that is no command, on an empty store. -/
theorem captured_run_unknown :
    let inbound := InboundMessage.withText (.plain .unknown "" 0) (some "/entry walk")
    let out := ((Dispatcher.citing .standard).dispatch inbound).exec (StoreKind.mock.backend .plain)
      .steady (World.initial .mock .plain)
    PyText.strip "/entry walk" ≠ "" ∧ Captured .steady inbound "/entry walk"
      (World.initial .mock .plain).rows out.2.rows out.1 :=
  have hne : PyText.strip "/entry walk" ≠ "" := by decide
  ⟨hne, captured_run .mock .plain .steady [] (.citing .standard) (.plain .unknown "" 0)
    "/entry walk" hne rfl⟩

/-! ## Replies -/

/-- The formatter of a note's reply accepts a result that is invalid or has a date. -/
theorem formatIngestReply_ok_iff (result : IngestResult) :
    (∃ text, formatIngestReply result = .ok text) ↔
      (result.fallback = .invalidInput ∨ result.noteDate.isSome) := by
  unfold formatIngestReply
  split
  · rename_i hinvalid
    exact ⟨fun _ => .inl hinvalid, fun _ => ⟨_, rfl⟩⟩
  · rename_i hvalid
    split
    · rename_i hdate
      simp [hdate, hvalid, throw, throwThe, MonadExceptOf.throw]
    · rename_i d hdate
      rw [hdate]
      refine ⟨fun _ => .inr rfl, fun _ => ?_⟩
      split <;> exact ⟨_, rfl⟩

/-- A draft persisted for the key makes a result without a date, and nothing else does for a
note. -/
theorem IngestOutcome.dated {service : DomainService} {result : IngestResult}
    {w' : World (kind.backend engine).State}
    (h : IngestOutcome env service message w (.ok result) w') (hroute : message.route ≠ .draft) :
    (result.fallback = .invalidInput ∨ result.noteDate.isSome) ↔
      ¬ ∃ s, w.rows.sourceForKey message.messageKey = some s ∧ s.detectedRoute = .draft := by
  generalize hr : (Except.ok result : Except Exn IngestResult) = r at h
  cases h with
  | refused => cases hr
  | @replayed _ existing _ _ _ hexisting hkey hp hc =>
    rw [← hr] at hc
    obtain rfl : result = rebuilt w.rows existing := hc.1
    rw [hexisting]
    by_cases hdraft : existing.detectedRoute = .draft
    · simp [rebuilt, hdraft]
    · unfold rebuilt
      rw [if_neg hdraft]
      have hnot : ¬ ∃ s, some existing = some s ∧ s.detectedRoute = .draft := by
        rintro ⟨s, he, hs⟩
        cases he
        exact hdraft hs
      split
      · exact ⟨fun _ => hnot, fun _ => .inl rfl⟩
      · exact ⟨fun _ => hnot, fun _ => .inr rfl⟩
  | fresh hnone hunused hp ho =>
    rw [hnone]
    have hnot : ¬ ∃ s, (none : Option SourceMessage) = some s ∧ s.detectedRoute = .draft := by simp
    refine ⟨fun _ => hnot, fun _ => ?_⟩
    cases ho with
    | removed hdraft => exact absurd hdraft hroute
    | unparsed =>
      cases hr
      exact .inl rfl
    | stopped => cases hr
    | @saved _ _ _ r =>
      cases r with
      | error e => cases hr
      | ok u =>
        cases hr
        exact .inr rfl

/-- In every run, a note or draft whose ingest returns gets its reply, except a note whose key a
draft persisted before. -/
theorem replies_iff (kind : StoreKind) (engine : SearchEngine) (env : Env) (ops : List Operation)
    (dispatcher : Dispatcher) (message : InboundMessage) (result : IngestResult) :
    let w := runAll (kind.backend engine) env (World.initial kind engine) ops
    message.route.Persists →
    ((dispatcher.domain.ingest message.ingested).exec (kind.backend engine) env w).1 = .ok result →
      ((∃ reply, ((dispatcher.dispatch message).exec (kind.backend engine) env w).1 = .ok reply) ↔
        ¬ (message.route = .note ∧ ∃ s, w.rows.sourceForKey message.messageKey = some s ∧
          s.detectedRoute = .draft)) := by
  intro w hroute hresult
  have hs : Sound env w := sound_run env ops
  have hreply : ((dispatcher.dispatch message).exec (kind.backend engine) env w).1 =
      replyTo message.ingested result := by
    rw [exec_dispatch_persists dispatcher w hroute, hresult]
    rfl
  rw [hreply]
  by_cases hnote : message.route = .note
  · have hkey : message.ingested.messageKey = message.messageKey := by
      rw [InboundMessage.ingested, if_pos hnote]
      rfl
    have hkept : message.ingested.route = .note := by
      rw [InboundMessage.ingested, if_pos hnote]
      exact hnote
    have hout := ingest_outcome hs dispatcher.domain message.ingested
    rw [hresult] at hout
    have hdated := hout.dated (by simp [hkept])
    rw [hkey] at hdated
    rw [replyTo, if_pos hkept]
    simp only [hnote, true_and]
    rw [← hdated, ← formatIngestReply_ok_iff]
    cases formatIngestReply result with
    | error e => exact ⟨fun ⟨_, h⟩ => (nomatch h), fun ⟨_, h⟩ => (nomatch h)⟩
    | ok text => exact ⟨fun _ => ⟨text, rfl⟩, fun _ => ⟨_, rfl⟩⟩
  · have hkept : message.ingested.route ≠ .note := by rwa [InboundMessage.ingested, if_neg hnote]
    rw [replyTo, if_neg hkept]
    exact ⟨fun _ h => hnote h.1, fun _ => ⟨_, rfl⟩⟩

/-- A new note gets its reply. -/
theorem replies_iff_new :
    let dispatcher := Dispatcher.citing .standard
    let message := InboundMessage.plain .note "2026-05-09\nwalk" 0
    let w := World.initial .mock .plain
    ∃ result, ((dispatcher.domain.ingest message.ingested).exec (StoreKind.mock.backend .plain)
        .steady w).1 = .ok result ∧
      ((∃ reply, ((dispatcher.dispatch message).exec (StoreKind.mock.backend .plain) .steady w).1 =
        .ok reply) ↔ ¬ (message.route = .note ∧
          ∃ s, w.rows.sourceForKey message.messageKey = some s ∧ s.detectedRoute = .draft)) := by
  intro dispatcher message w
  have hresult : ((dispatcher.domain.ingest message.ingested).exec (StoreKind.mock.backend .plain)
      .steady w).1.toOption = some ⟨.none, "", some ⟨2026, 5, 9, by decide⟩, 1, none, false⟩ := by
    decide +kernel
  exact ⟨_, ok_of_toOption hresult, replies_iff .mock .plain .steady [] dispatcher message _ (.inl rfl)
    (ok_of_toOption hresult)⟩

/-- Two edits in one second, plain text and then a note : the note's ingest returns the draft's
result, and no reply is made of it. -/
theorem no_reply_after_draft :
    let dispatcher := Dispatcher.citing .standard
    let w := runAll (StoreKind.mock.backend .plain) .steady (World.initial .mock .plain)
      [.dispatch dispatcher (.plain .draft "walk" 7)]
    let message := InboundMessage.plain .note "2026-05-09\nwalk" 7
    ((dispatcher.domain.ingest message.ingested).exec (StoreKind.mock.backend .plain)
        .steady w).1.toOption.isSome ∧
      ¬ ∃ reply, ((dispatcher.dispatch message).exec (StoreKind.mock.backend .plain) .steady w).1 =
        .ok reply := by
  intro dispatcher w message
  refine ⟨by decide +kernel, fun ⟨reply, h⟩ => ?_⟩
  have hnone : ((dispatcher.dispatch message).exec (StoreKind.mock.backend .plain)
      .steady w).1.toOption = none := by decide +kernel
  rw [h] at hnone
  cases hnone

end Texts

end DiaryMemory
