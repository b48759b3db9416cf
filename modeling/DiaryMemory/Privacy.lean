import DiaryMemory.Delivering
import DiaryMemory.Replies

/-!
# What a chat is sent

Updates of any chats are served at the same time, call by call, and any call may fail. What the
webhook sends to a chat by calls of its own is made of rows that messages of this chat brought :
the drafts and the chunks with their texts, the names of their authors as an update of the same
message gave them, and the documents (`Parcel.SaidIn`). `edgePact` is the pact of the webhook
with the system behind this, kept at every step (`chats_isolated`); a snapshot of an author that
was kept once stays as it is.
-/

namespace DiaryMemory

open Pact

section Statements

variable {ι : Type} (requests : ι → WebhookRequest)

/-- A request brought the message, received at the given time. -/
def Brought (message : TelegramMessage) (receivedAt : DateTime) : Prop :=
  ∃ i, (requests i).update.received = some message ∧
    DateTime.fromTimestamp? message.date = some receivedAt

/-- The messages the services were given, as they came or with the first line of a note
normalised. -/
def Received (m : InboundMessage) : Prop :=
  ∃ message receivedAt, Brought requests message receivedAt ∧
    (m = message.inbound receivedAt ∨
      m = { message.inbound receivedAt with
        payload := normalizeNotePayload (message.inbound receivedAt).payload receivedAt.date })

/-- The snapshot of the sender of a message that was brought. -/
def Snapshot (row : AuthorDisplayInput) : Prop :=
  ∃ message receivedAt, Brought requests message receivedAt ∧
    row = message.displayInput (message.inbound receivedAt)

/-- The name of an author beside a source row : the end of the identifier, or what an update of
the same message state said. -/
def NameFor (s : SourceMessage) (authorUserId name : String) : Prop :=
  name = authorName none authorUserId ∨
    ∃ row, Snapshot requests row ∧ row.key = s.messageKey ∧
      name = resolveAuthorDisplayName row.username row.firstName authorUserId

/-- A block that shows a draft or a chunk of a community. -/
inductive BlockIn (community : String) : String → Prop where
  | draft {s : SourceMessage} {author : String} (h : s.communityId = community)
      (hof : s.Of (Received requests)) (hname : NameFor requests s s.authorUserId author) :
      BlockIn community (draftBlock s author)
  | chunk {c : EventChunk} {author : String} (index total : Nat) (h : c.communityId = community)
      (hof : c.Of (Received requests))
      (hname : author = authorName none c.authorUserId ∨ ∃ s : SourceMessage,
        s.sourceMessageId = c.sourceMessageId ∧ s.communityId = community ∧ s.Of (Received requests) ∧
          NameFor requests s c.authorUserId author) :
      BlockIn community (sourceBlock c index total author)

/-- The header of a delivery names numbers only. -/
def PlainHeader (header : String) : Prop :=
  header = "" ∨ ∃ returned requested explicit maxLimit,
    header = formatDraftsHeader returned requested explicit maxLimit

/-- A parcel that shows nothing but what was said in a community : packed blocks of its rows, a
notice, or a document of its rows for a user who asked for it there. -/
def Parcel.SaidIn (community : String) : Parcel → Prop
  | .message text =>
    (∃ what ∈ ["drafts", "sources"], ∃ sent total, text = deliveryNotice what sent total) ∨
      ∃ header blocks messages, PlainHeader header ∧
        packDraftsIntoMessages header blocks defaultCap defaultSeparator = .ok messages ∧
        text ∈ messages ∧ ∀ b ∈ blocks, BlockIn requests community b
  | .document filename content mediaType caption =>
    DocumentSaidIn (Received requests) community filename content mediaType caption

/-- The pact of the webhook : what it sends to a chat was said there, and what it reads is what
was captured. -/
def edgePact : Pact EdgeCall EdgeReply where
  asks
    | .core c => (exchange (Received requests)).asks c
    | .saveAuthorDisplayInput row => Snapshot requests row
    | .send chatId parcel => parcel.SaidIn requests chatId
    | _ => True
  gives
    | .core c, r => (exchange (Received requests)).gives c r
    | .getAuthorDisplayInput key, r =>
      ∀ row : AuthorDisplayInput, r = .ok (some row) → row.key = key ∧ Snapshot requests row
    | .getSourceMessage id community, r =>
      ∀ s : SourceMessage, r = .ok (some s) → s.sourceMessageId = id ∧ s.communityId = community ∧
        s.Of (Received requests)
    | _, _ => True

end Statements

/-- The state of a system that was told no more than the requests. -/
structure Edge.Told {kind : StoreKind} {engine : SearchEngine} {ι : Type}
    (requests : ι → WebhookRequest) (v : Edge (kind.backend engine).State) : Prop where
  world : v.world.Told (Received requests)
  displays : ∀ row ∈ v.displays, Snapshot requests row
  sent : ∀ a ∈ v.sent, a.parcel.SaidIn requests a.chatId

/-! ## The system keeps the pact -/

section Honours

variable {ι : Type} {requests : ι → WebhookRequest} {kind : StoreKind} {engine : SearchEngine}
  {env : EdgeEnv}

theorem Edge.Told.port {v : Edge (kind.backend engine).State} (h : v.Told requests) {α : Type}
    {r : Except Exn α} {displays : AuthorDisplayInputs}
    (hdisplays : ∀ row ∈ displays, Snapshot requests row) :
    (v.port env r displays).2.Told requests := by
  unfold Edge.port
  split
  · exact ⟨h.world, h.displays, h.sent⟩
  · exact ⟨h.world, hdisplays, h.sent⟩

/-- A port returns what it was asked for, or raises. -/
theorem port_eq_ok {S α : Type} {v : Edge S} {r : Except Exn α} {displays : AuthorDisplayInputs}
    {a : α} (h : (v.port env r displays).1 = .ok a) : r = .ok a := by
  unfold Edge.port at h
  split at h
  · cases h
  · exact h

theorem honours_serveEdge :
    (edgePact requests).Honours (serveEdge (kind.backend engine) env) (Edge.Told requests) := by
  intro c v hv hc
  cases c with
  | core c =>
    obtain ⟨hgives, hworld⟩ := @honours_serve kind engine env.toEnv _ c v.world hv.world hc
    exact ⟨hgives, hworld, hv.displays, hv.sent⟩
  | saveAuthorDisplayInput row =>
    refine ⟨trivial, hv.port fun row' hrow' => ?_⟩
    rcases mem_saveAuthorDisplayInput hrow' with rfl | hrow'
    · exact hc
    · exact hv.displays row' hrow'
  | getAuthorDisplayInput key =>
    refine ⟨fun row hrow => ?_, hv.port hv.displays⟩
    have hfound := Except.ok.inj (port_eq_ok hrow)
    exact ⟨Table.key_of_find? hfound, hv.displays row (Table.mem_of_find? hfound)⟩
  | getSourceMessage id community =>
    refine ⟨fun s hs => ?_, hv.port hv.displays⟩
    have hfound := port_eq_ok hs
    rw [getSourceMessage, requireCommunity_bind] at hfound
    split at hfound
    · cases hfound
    · have howned := Except.ok.inj hfound
      obtain ⟨hrow, hcommunity⟩ := Option.filter_eq_some_iff.mp howned
      exact ⟨Table.key_of_find? hrow, of_decide_eq_true hcommunity,
        hv.world.rows.sources s (Table.mem_of_find? hrow)⟩
  | send chatId parcel =>
    have hsent : ∀ delivered, ∀ a ∈ v.sent ++ [⟨chatId, parcel, delivered⟩],
        a.parcel.SaidIn requests a.chatId := by
      intro delivered a ha
      rcases List.mem_append.mp ha with ha | ha
      · exact hv.sent a ha
      · rw [List.mem_singleton.mp ha]
        exact hc
    refine ⟨trivial, ?_⟩
    simp only [serveEdge]
    split
    · exact ⟨hv.world, hv.displays, hsent false⟩
    · exact ⟨hv.world, hv.displays, hsent true⟩

/-- A snapshot stays as it is. -/
theorem find?_serveEdge {B : Backend} {v : Edge B.State} {key : MessageKey}
    {row : AuthorDisplayInput} (c : EdgeCall) (h : v.displays.find? key = some row) :
    (serveEdge B env c v).2.displays.find? key = some row := by
  have hport : ∀ {α : Type} (r : Except Exn α) {displays : AuthorDisplayInputs},
      displays.find? key = some row → (v.port env r displays).2.displays.find? key = some row := by
    intro α r displays hdisplays
    unfold Edge.port
    split
    · exact h
    · exact hdisplays
  cases c with
  | core c => exact h
  | saveAuthorDisplayInput row' => exact hport _ (find?_saveAuthorDisplayInput h)
  | getAuthorDisplayInput | getSourceMessage => exact hport _ h
  | send chatId parcel =>
    simp only [serveEdge]
    split
    · exact h
    · exact h

end Honours

/-! ## The webhook keeps the pact -/

section Webhook

variable {ι : Type} {requests : ι → WebhookRequest} {community : String} {α : Type}

/-- The services keep to the pact at the edge. -/
theorem ensures_core {p : Proc α} {Q : α → Prop} (h : (exchange (Received requests)).Ensures p Q) :
    (edgePact requests).Ensures (EdgeProc.core p) Q :=
  ensures_attempt (Prog.wp_hoist (fun _ _ hc => wp_perform_of_asks hc fun _ hr => hr) p.run h.keeps)

theorem edge_ofExcept (r : Except Exn α) :
    (edgePact requests).Ensures (EdgeProc.ofExcept r) fun a => r = .ok a := by
  cases r with
  | error e => exact ensures_throw e
  | ok a => exact ensures_pure rfl

theorem edge_send {parcel : Parcel} (h : parcel.SaidIn requests community) :
    (edgePact requests).Ensures (EdgeProc.send community parcel) fun _ => True :=
  ensures_attempt (wp_perform_of_asks h fun _ _ _ _ => trivial)

/-- The name for the snapshot of a source row, or for none. -/
theorem edge_authorName (s : SourceMessage) (authorUserId : String) :
    (edgePact requests).Ensures (do
      let snapshot ← EdgeProc.getAuthorDisplayInput s.messageKey
      pure (authorName snapshot authorUserId)) (NameFor requests s authorUserId) := by
  refine ensures_bind (fun snapshot : Option AuthorDisplayInput => ∀ row, snapshot = some row →
    row.key = s.messageKey ∧ Snapshot requests row)
    (ensures_attempt (wp_perform_of_asks trivial fun r hr snapshot hsnapshot row hrow =>
      hr row (hsnapshot.trans (congrArg _ hrow)))) fun snapshot hsnapshot => ensures_pure ?_
  cases snapshot with
  | none => exact .inl rfl
  | some row =>
    obtain ⟨hkey, hrow⟩ := hsnapshot row rfl
    exact .inr ⟨row, hrow, hkey, rfl⟩

theorem ensures_renderDrafts {drafts : List SourceMessage}
    (h : ∀ s ∈ drafts, s.communityId = community ∧ s.Of (Received requests)) :
    (edgePact requests).Ensures (renderDrafts community drafts)
      fun blocks => ∀ b ∈ blocks, BlockIn requests community b := by
  induction drafts with
  | nil => exact ensures_pure (by simp)
  | cons draft drafts ih =>
    obtain ⟨⟨hcommunity, hof⟩, hdrafts⟩ := List.forall_mem_cons.mp h
    refine ensures_bind (BlockIn requests community) ?_ fun block hblock =>
      ensures_bind _ (ih hdrafts) fun blocks hblocks =>
        ensures_pure (List.forall_mem_cons.mpr ⟨hblock, hblocks⟩)
    refine ensures_bind (NameFor requests draft draft.authorUserId) ?_ fun author hauthor =>
      ensures_pure (.draft hcommunity hof hauthor)
    unfold resolveSourceAuthorDisplay
    rw [if_pos hcommunity]
    exact edge_authorName draft draft.authorUserId

theorem ensures_renderSources {chunks : List EventChunk} (total index : Nat)
    (h : ∀ c ∈ chunks, c.communityId = community ∧ c.Of (Received requests)) :
    (edgePact requests).Ensures (renderSources community total index chunks)
      fun blocks => ∀ b ∈ blocks, BlockIn requests community b := by
  induction chunks generalizing index with
  | nil => exact ensures_pure (by simp)
  | cons chunk chunks ih =>
    obtain ⟨⟨hcommunity, hof⟩, hchunks⟩ := List.forall_mem_cons.mp h
    refine ensures_bind (BlockIn requests community) ?_ fun block hblock =>
      ensures_bind _ (ih (index + 1) hchunks) fun blocks hblocks =>
        ensures_pure (List.forall_mem_cons.mpr ⟨hblock, hblocks⟩)
    refine ensures_bind (fun author => author = authorName none chunk.authorUserId ∨
      ∃ s : SourceMessage, s.sourceMessageId = chunk.sourceMessageId ∧ s.communityId = community ∧
        s.Of (Received requests) ∧ NameFor requests s chunk.authorUserId author) ?_
      fun author hauthor => ensures_pure (.chunk index total hcommunity hof hauthor)
    refine ensures_bind (fun found : Option SourceMessage => ∀ s, found = some s →
      s.sourceMessageId = chunk.sourceMessageId ∧ s.communityId = community ∧
        s.Of (Received requests)) ?_ fun found hfound => ?_
    · exact ensures_attempt (wp_perform_of_asks trivial fun r hr found hok s hs =>
        hr s (hok.trans (congrArg _ hs)))
    · cases found with
      | none => exact ensures_pure (.inl rfl)
      | some s =>
        obtain ⟨hid, howned, hsaid⟩ := hfound s rfl
        exact (edge_authorName s chunk.authorUserId).imp fun author hauthor =>
          .inr ⟨s, hid, howned, hsaid, hauthor⟩

theorem ensures_deliver {what : String} (hwhat : what ∈ ["drafts", "sources"]) (total : Nat) :
    ∀ (bodies : List String) (sent : Nat),
      (∀ body ∈ bodies, (Parcel.message body).SaidIn requests community) →
        (edgePact requests).Ensures (deliver what community total sent bodies) fun _ => True
  | [], _, _ => ensures_pure trivial
  | body :: bodies, sent, h => by
    obtain ⟨hbody, hbodies⟩ := List.forall_mem_cons.mp h
    unfold deliver
    refine ensures_bind _ (ensures_capture (edge_send hbody)) fun r _ => ?_
    cases r with
    | ok _ => exact ensures_deliver hwhat total bodies (sent + 1) hbodies
    | error _ =>
      have hnotice : (Parcel.message (deliveryNotice what sent total)).SaidIn requests community :=
        .inl ⟨what, hwhat, sent, total, rfl⟩
      exact ensures_bind _ (ensures_capture (edge_send hnotice)) fun _ _ => ensures_pure trivial

theorem ensures_deliverBlocks {what header : String} {blocks : List String}
    (hwhat : what ∈ ["drafts", "sources"]) (hheader : PlainHeader header)
    (h : ∀ b ∈ blocks, BlockIn requests community b) :
    (edgePact requests).Ensures (deliverBlocks what community header blocks) fun _ => True := by
  refine ensures_bind _ (edge_ofExcept _) fun messages hmessages => ?_
  exact ensures_deliver hwhat messages.length messages 0 fun body hbody =>
    .inr ⟨header, blocks, messages, hheader, hmessages, hbody, h⟩

theorem ensures_respondWith {inbound : InboundMessage} {result : DispatchResult}
    (hchat : inbound.externalChatId = community) (hcommunity : inbound.communityId = community)
    (h : result.SaidIn (Received requests) community) :
    (edgePact requests).Ensures (respondWith inbound result) fun _ => True := by
  cases hdocument : result.document with
  | some d =>
    rw [respondWith_document hdocument, hchat]
    refine ensures_bind _ (ensures_capture (edge_send (h.document d hdocument))) fun r _ => ?_
    cases r with
    | ok _ => exact ensures_pure trivial
    | error _ => exact ensures_bind _ (edge_ofExcept _) fun _ _ => ensures_pure trivial
  | none =>
  cases hdrafts : result.drafts with
  | some drafts =>
    obtain ⟨hheader, hrows⟩ := h.drafts drafts hdrafts
    rw [respondWith_drafts hdocument hdrafts, hchat, hcommunity]
    exact ensures_bind _ (ensures_renderDrafts hrows) fun blocks hblocks =>
      ensures_bind _ (ensures_deliverBlocks (by simp) (.inr hheader) hblocks) fun _ _ =>
        ensures_pure trivial
  | none =>
  cases hsources : result.sourceChunks with
  | some chunks =>
    obtain ⟨hheader, hchunks⟩ := h.sources chunks hsources
    rw [respondWith_sources hdocument hdrafts hsources, hchat, hcommunity]
    exact ensures_bind _ (ensures_renderSources chunks.length 1 hchunks) fun blocks hblocks =>
      ensures_bind _ (ensures_deliverBlocks (by simp) (.inl hheader) hblocks) fun _ _ =>
        ensures_pure trivial
  | none =>
    rw [respondWith_text hdocument hdrafts hsources]
    exact ensures_bind _ (edge_ofExcept _) fun _ _ => ensures_pure trivial

theorem ensures_captureDisplayInput {message : TelegramMessage} {receivedAt : DateTime}
    (h : Brought requests message receivedAt) (route : RouteKind) :
    (edgePact requests).Ensures (captureDisplayInput message (message.inbound receivedAt) route)
      fun _ => True := by
  unfold captureDisplayInput
  split
  · have hsave : (edgePact requests).Ensures (EdgeProc.saveAuthorDisplayInput
        (message.displayInput (message.inbound receivedAt))) fun _ => True :=
      ensures_attempt (wp_perform_of_asks ⟨message, receivedAt, h, rfl⟩ fun _ _ _ _ => trivial)
    exact ensures_bind _ (ensures_capture hsave) fun _ _ => ensures_pure trivial
  · exact ensures_pure trivial

/-- Every update keeps to the pact. -/
theorem ensures_telegramWebhook (i : ι) :
    (edgePact requests).Ensures (telegramWebhook (requests i)) fun _ => True := by
  rcases telegramWebhook_cases (requests i) with
    ⟨e, he⟩ | ⟨-, he⟩ | ⟨message, receivedAt, hmessage, htime, he⟩
  · rw [he]
    exact ensures_throw e
  · rw [he]
    exact ensures_pure trivial
  · rw [he]
    have hbrought : Brought requests message receivedAt := ⟨i, hmessage, htime⟩
    have hdispatch := @ensures_dispatch (Received requests) (requests i).dispatcher
      (message.inbound receivedAt) ⟨message, receivedAt, hbrought, .inl rfl⟩
      ⟨message, receivedAt, hbrought, .inr rfl⟩
    exact ensures_bind _ (ensures_core hdispatch) fun result hresult =>
      ensures_seq (ensures_captureDisplayInput hbrought result.route) fun _ =>
        ensures_respondWith rfl rfl hresult

end Webhook

/-- Updates of any chats, under any schedule of their calls, any of which may fail : what is sent
to a chat was said there, and a snapshot that is kept comes from an update and stays as it is. -/
theorem chats_isolated {ι : Type} [DecidableEq ι] (kind : StoreKind) (engine : SearchEngine)
    (env : EdgeEnv) (requests : ι → WebhookRequest) (schedule later : List ι) :
    let B := kind.backend engine
    let p : Pool ι EdgeCall EdgeReply (Except Exn (Option SendMessage)) (Edge B.State) :=
      ⟨⟨World.initial kind engine, .empty, [], 0⟩, fun i => (telegramWebhook (requests i)).run⟩
    let v := (p.run (serveEdge B env) schedule).state
    let v' := (p.run (serveEdge B env) (schedule ++ later)).state
    (∀ a ∈ v.sent, a.parcel.SaidIn requests a.chatId) ∧
      ∀ row ∈ v.displays, Snapshot requests row ∧ v'.displays.find? row.key = some row := by
  intro B p v v'
  have hstart : p.state.Told requests := by
    refine ⟨⟨⟨?_, ?_⟩, ?_⟩, ?_, ?_⟩ <;> cases kind <;> rintro _ ⟨⟩
  have hasks : ∀ i, (p.progs i).wp (edgePact requests).contract
      (fun r _ => ∀ a, r = .ok a → True) () := fun i => (ensures_telegramWebhook i).keeps
  have hhonours : (edgePact requests).Honours (serveEdge B env) (Edge.Told requests) :=
    honours_serveEdge
  obtain ⟨hprogs, hv⟩ := Pool.run_of_honours hhonours schedule hasks hstart
  refine ⟨hv.sent, fun row hrow => ⟨hv.displays row hrow, ?_⟩⟩
  have hstays : (edgePact requests).Honours (serveEdge B env) fun v : Edge B.State =>
      v.Told requests ∧ v.displays.find? row.key = some row := by
    rintro c v ⟨hv, hfound⟩ hc
    obtain ⟨hgives, hnext⟩ := hhonours c v hv hc
    exact ⟨hgives, hnext, find?_serveEdge c hfound⟩
  obtain ⟨-, -, hfound⟩ := Pool.run_of_honours hstays later hprogs ⟨hv, Table.find?_key hrow⟩
  rwa [← Pool.run_append] at hfound

end DiaryMemory
