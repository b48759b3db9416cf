import DiaryMemory.Packing
import DiaryMemory.Webhook
import Std.Data.String.ToInt

/-!
# What an update is answered with

A procedure that sends nothing leaves the attempts alone (`silent`); what the others send is
followed in a contract of its own (`outbox`). So an update whose message is served is answered
once : by the response, by a document, or by the packed blocks of all the drafts or chunks in
their order, which break off with a notice at the first message that can not be delivered
(`update_answered`). An update that fails sends nothing.
-/

namespace DiaryMemory

open Pact

/-! ## What is sent -/

/-- The attempts a call makes. -/
def EdgeCall.attempts : (c : EdgeCall) → EdgeReply c → List Sending
  | .send chatId parcel, r => [⟨chatId, parcel, !isRaise (α := Unit) r⟩]
  | _, _ => []

/-- Calls add their attempts to those already made. -/
def outbox : Contract EdgeCall EdgeReply (List Sending) where
  pre _ _ := True
  post c t r t' := t' = t ++ c.attempts r

section Outbox

variable {B : Backend} {env : EdgeEnv}

theorem sent_port {S α : Type} (v : Edge S) (r : Except Exn α) (displays : AuthorDisplayInputs) :
    (v.port env r displays).2.sent = v.sent := by
  unfold Edge.port
  split <;> rfl

theorem outbox_meets : outbox.Meets (serveEdge B env) Edge.sent fun _ => True := by
  intro c v _ _
  refine ⟨trivial, ?_⟩
  cases c with
  | core c => exact (List.append_nil _).symm
  | saveAuthorDisplayInput | getAuthorDisplayInput | getSourceMessage =>
    exact (sent_port ..).trans (List.append_nil _).symm
  | send chatId parcel =>
    simp only [outbox, serveEdge]
    cases env.sendFails v.sent.length <;> rfl

end Outbox

/-- A procedure that sends nothing. -/
def silent : Pact EdgeCall EdgeReply where
  asks
    | .send .. => False
    | _ => True
  gives _ _ := True

theorem Prog.wp_outbox_of_silent {α : Type} {Q : α → Unit → Prop} (t : List Sending) :
    ∀ q : Prog EdgeCall EdgeReply α, q.wp silent.contract Q () →
      q.wp outbox (fun a t' => t' = t ∧ Q a ()) t
  | .ret _, h => ⟨rfl, h⟩
  | .call c k, h => by
    refine ⟨trivial, ?_⟩
    rintro r _ rfl
    have hnone : c.attempts r = [] := by
      cases c with
      | send => exact absurd h.1 id
      | _ => rfl
    rw [hnone, List.append_nil]
    exact wp_outbox_of_silent t (k r) (h.2 r () trivial)

/-- After a part that sends nothing. -/
theorem wp_outbox_bind {α β : Type} {p : EdgeProc α} {f : α → EdgeProc β} {Q : α → Prop}
    {Q' : Except Exn β → List Sending → Prop} {t : List Sending} (hp : silent.Ensures p Q)
    (herror : ∀ e, Q' (.error e) t) (hf : ∀ a, Q a → wp outbox (f a) Q' t) :
    wp outbox (p >>= f) Q' t := by
  refine (wp_bind p f Q' t).mpr (wp_imp (fun r t' hr => ?_)
    (Prog.wp_outbox_of_silent t p.run hp.keeps))
  obtain ⟨rfl, hr⟩ := hr
  cases r with
  | error e => exact herror e
  | ok a => exact hf a (hr a rfl)

/-! ## Rendering -/

section Rendering

theorem ensures_port {α : Type} {q : Prog EdgeCall EdgeReply (Except Exn α)}
    (h : q.wp silent.contract (fun _ _ => True) ()) : silent.Ensures (attempt q) fun _ => True :=
  ensures_attempt (Prog.wp_mono q (fun _ _ _ _ _ => trivial) h)

theorem silent_getAuthorDisplayInput (key : MessageKey) :
    silent.Ensures (EdgeProc.getAuthorDisplayInput key) fun _ => True :=
  ensures_port ⟨trivial, fun _ _ _ => trivial⟩

/-- Every draft has its block. -/
theorem silent_renderDrafts (communityId : String) (drafts : List SourceMessage) :
    silent.Ensures (renderDrafts communityId drafts)
      (List.Forall₂ (fun draft block => ∃ author, block = draftBlock draft author) drafts) := by
  induction drafts with
  | nil => exact ensures_pure .nil
  | cons draft drafts ih =>
    refine ensures_bind (fun block => ∃ author, block = draftBlock draft author) ?_
      fun block hblock => ensures_bind _ ih fun blocks hblocks => ensures_pure (.cons hblock hblocks)
    refine ensures_seq ?_ fun author => ensures_pure ⟨author, rfl⟩
    unfold resolveSourceAuthorDisplay
    split
    · exact ensures_seq (silent_getAuthorDisplayInput _) fun _ => ensures_pure trivial
    · exact ensures_pure trivial

/-- Every chunk has its block, with its place. -/
theorem silent_renderSources (communityId : String) (total index : Nat) (chunks : List EventChunk) :
    silent.Ensures (renderSources communityId total index chunks)
      (List.Forall₂ (fun e block => ∃ author, block = sourceBlock e.1 e.2 total author)
        (chunks.zipIdx index)) := by
  induction chunks generalizing index with
  | nil => exact ensures_pure .nil
  | cons chunk chunks ih =>
    refine ensures_bind (fun block => ∃ author, block = sourceBlock chunk index total author) ?_
      fun block hblock => ensures_bind _ (ih (index + 1)) fun blocks hblocks =>
        ensures_pure (.cons hblock hblocks)
    refine ensures_seq ?_ fun author => ensures_pure ⟨author, rfl⟩
    refine ensures_seq (ensures_port ⟨trivial, fun _ _ _ => trivial⟩) fun source => ?_
    cases source with
    | none => exact ensures_pure trivial
    | some source => exact ensures_seq (silent_getAuthorDisplayInput _) fun _ => ensures_pure trivial

end Rendering

/-! ## Delivery -/

/-- All the messages, or those before the first that failed, which the notice follows; `sent`
messages of `total` were sent before. -/
inductive Delivery (what chatId : String) (total : Nat) :
    Nat → List String → List Sending → Prop where
  | whole (sent : Nat) (bodies : List String) : Delivery what chatId total sent bodies
      (bodies.map fun body => ⟨chatId, .message body, true⟩)
  | brokenOff (sent : Nat) (before : List String) (body : String) (after : List String)
      (notified : Bool) : Delivery what chatId total sent (before ++ body :: after)
      (before.map (fun body => ⟨chatId, .message body, true⟩) ++
        [⟨chatId, .message body, false⟩,
          ⟨chatId, .message (deliveryNotice what (sent + before.length) total), notified⟩])

theorem Delivery.cons {what chatId : String} {total sent : Nat} {bodies : List String}
    {attempts : List Sending} (body : String)
    (h : Delivery what chatId total (sent + 1) bodies attempts) :
    Delivery what chatId total sent (body :: bodies) (⟨chatId, .message body, true⟩ :: attempts) := by
  cases h with
  | whole => exact .whole sent (body :: bodies)
  | brokenOff before failed after notified =>
    have hsent : sent + 1 + before.length = sent + (body :: before).length := by
      rw [List.length_cons]
      omega
    rw [hsent]
    exact .brokenOff sent (body :: before) failed after notified

theorem wp_deliver (what chatId : String) (total : Nat) :
    ∀ (bodies : List String) (sent : Nat) (t : List Sending),
      wp outbox (deliver what chatId total sent bodies) (fun r t' => r = .ok () ∧
        ∃ attempts, t' = t ++ attempts ∧ Delivery what chatId total sent bodies attempts) t
  | [], sent, t => ⟨rfl, [], (List.append_nil t).symm, .whole sent []⟩
  | body :: bodies, sent, t => by
    unfold deliver
    refine (wp_bind _ _ _ t).mpr ((wp_capture _ _ t).mpr ⟨trivial, ?_⟩)
    rintro r _ rfl
    cases r with
    | ok _ =>
      change wp outbox (deliver what chatId total (sent + 1) bodies) _ _
      refine wp_imp (fun r t' h => ?_) (wp_deliver what chatId total bodies (sent + 1) _)
      obtain ⟨hr, attempts, rfl, hattempts⟩ := h
      exact ⟨hr, _ :: attempts, List.append_assoc t [_] attempts, hattempts.cons body⟩
    | error e =>
      refine (wp_bind _ _ _ _).mpr ((wp_capture _ _ _).mpr ⟨trivial, ?_⟩)
      rintro r _ rfl
      refine ⟨rfl, _, List.append_assoc t [_] [_], ?_⟩
      exact .brokenOff sent [] body bodies _

/-- What the blocks of a result show, in its order. -/
inductive DispatchResult.Shows (result : DispatchResult) : String → List String → Prop where
  | drafts {drafts : List SourceMessage} {blocks : List String} (h : result.drafts = some drafts)
      (hblocks : List.Forall₂ (fun draft block => ∃ author, block = draftBlock draft author)
        drafts blocks) : Shows result "drafts" blocks
  | sources {chunks : List EventChunk} {blocks : List String}
      (h : result.sourceChunks = some chunks)
      (hblocks : List.Forall₂ (fun e block => ∃ author,
        block = sourceBlock e.1 e.2 chunks.length author) (chunks.zipIdx 1) blocks) :
      Shows result "sources" blocks

/-- The messages are those of a cut of the blocks, and of the header they have, into as few pieces
as possible, each within the cap; a header above the cap is sent whole, before those of the blocks. -/
structure PackedAs (header : String) (blocks messages : List String) : Prop where
  pieces : header.length ≤ defaultCap → packedItems header blocks ≠ [] →
    ∃ pieces, Packed defaultCap defaultSeparator (packedItems header blocks) pieces ∧
      messages = pieces.flatMap (Piece.messages defaultSeparator)
  overlong : defaultCap < header.length →
    ∃ pieces, Packed defaultCap defaultSeparator blocks pieces ∧
      messages = header :: pieces.flatMap (Piece.messages defaultSeparator)
  nothing : header = "" → blocks = [] → messages = [""]
  length_le : ∀ m ∈ messages, (m.length : Int) ≤ defaultCap ∨ m = header

theorem packedAs_of_pack {header : String} {blocks messages : List String}
    (hblocks : ∀ b ∈ blocks, b ≠ "")
    (h : packDraftsIntoMessages header blocks defaultCap defaultSeparator = .ok messages) :
    PackedAs header blocks messages := by
  have hsound : ∀ {items : List String} {pieces : List Piece},
      Packed defaultCap defaultSeparator items pieces →
      ∀ m ∈ pieces.flatMap (Piece.messages defaultSeparator), (m.length : Int) ≤ defaultCap := by
    intro items pieces hpacked m hm
    obtain ⟨p, hp, hm⟩ := List.mem_flatMap.mp hm
    exact (hpacked.sound p hp).length_le m hm
  have hnothing : header = "" → blocks = [] → messages = [""] := by
    rintro rfl rfl
    exact (Except.ok.inj h).symm
  refine ⟨fun hfits hitems => packed_of_pack hfits hblocks hitems h,
    fun hover => packed_of_overlong hover hblocks h, hnothing, fun m hm => ?_⟩
  by_cases hover : defaultCap < header.length
  · obtain ⟨pieces, hpacked, rfl⟩ := packed_of_overlong hover hblocks h
    exact (List.mem_cons.mp hm).elim .inr fun hm => .inl (hsound hpacked m hm)
  · by_cases hitems : packedItems header blocks = []
    · unfold packedItems at hitems
      split at hitems
      · next hheader =>
        rw [hnothing hheader hitems, List.mem_singleton] at hm
        exact .inr (hm.trans hheader.symm)
      · cases hitems
    · obtain ⟨pieces, hpacked, rfl⟩ := packed_of_pack (by omega) hblocks hitems h
      exact .inl (hsound hpacked m hm)

/-- The answer to a message that was served : the response, and what was sent to the chat. -/
inductive Responded (chat : Int) (result : DispatchResult) :
    Except Exn (Option SendMessage) → List Sending → Prop where
  | failed (e : Exn) : Responded chat result (.error e) []
  | text (hdocument : result.document = none) (hdrafts : result.drafts = none)
      (hsources : result.sourceChunks = none) :
      Responded chat result (.ok (some ⟨chat, result.replyText⟩)) []
  | document {d : ExportPayload} (h : result.document = some d) : Responded chat result (.ok none)
      [⟨toString chat, .document d.filename d.content d.mediaType result.replyText, true⟩]
  | documentFailed {d : ExportPayload} (h : result.document = some d) :
      Responded chat result (.ok (some ⟨chat, replyDeliveryFailed⟩))
        [⟨toString chat, .document d.filename d.content d.mediaType result.replyText, false⟩]
  | blocks {what : String} {blocks messages : List String} {attempts : List Sending}
      (hshown : result.Shows what blocks) (hpacked : PackedAs result.replyText blocks messages)
      (hsent : Delivery what (toString chat) messages.length 0 messages attempts) :
      Responded chat result (.ok none) attempts

theorem buildSendMessagePayload_toString (chat : Int) (text : String) :
    buildSendMessagePayload (toString chat) text = .ok ⟨chat, text⟩ := by
  unfold buildSendMessagePayload
  rw [show (toString chat).toInt? = some chat from Int.toInt?_repr chat]
  rfl

/-- The adding of a part to what was sent. -/
theorem responded_deliverBlocks {chat : Int} {result : DispatchResult} {what : String}
    {blocks : List String} (hshown : result.Shows what blocks) (hblocks : ∀ b ∈ blocks, b ≠ "")
    (t : List Sending) :
    wp outbox (do
      deliverBlocks what (toString chat) result.replyText blocks
      pure none) (fun r t' => ∃ attempts, t' = t ++ attempts ∧ Responded chat result r attempts) t := by
  refine (wp_bind _ _ _ t).mpr ?_
  unfold deliverBlocks
  cases hpack : packDraftsIntoMessages result.replyText blocks defaultCap defaultSeparator with
  | error e => exact ⟨[], (List.append_nil t).symm, .failed e⟩
  | ok messages =>
    refine wp_imp (fun r t' h => ?_) (wp_deliver what (toString chat) messages.length messages 0 t)
    obtain ⟨rfl, attempts, rfl, hattempts⟩ := h
    exact ⟨attempts, rfl, .blocks hshown (packedAs_of_pack hblocks hpack) hattempts⟩

theorem draftBlock_ne_empty (draft : SourceMessage) (author : String) :
    draftBlock draft author ≠ "" := by
  intro h
  have hlength := congrArg String.length h
  simp only [draftBlock, String.length_append] at hlength
  have hpos : ("📝 ").length = 2 := by decide
  rw [hpos, String.length_empty] at hlength
  omega

theorem sourceBlock_ne_empty (chunk : EventChunk) (index total : Nat) (author : String) :
    sourceBlock chunk index total author ≠ "" := by
  intro h
  have hlength := congrArg String.length h
  simp only [sourceBlock, String.length_append] at hlength
  have hpos : ("[").length = 1 := by decide
  rw [hpos, String.length_empty] at hlength
  omega

/-- Blocks of a form that is never empty. -/
theorem forall_ne_empty {α : Type} {f : α → String → String} (hf : ∀ a author, f a author ≠ "")
    {rows : List α} {blocks : List String}
    (h : List.Forall₂ (fun a block => ∃ author, block = f a author) rows blocks) :
    ∀ b ∈ blocks, b ≠ "" := by
  induction h with
  | nil => simp
  | cons hb _ ih =>
    obtain ⟨author, rfl⟩ := hb
    exact List.forall_mem_cons.mpr ⟨hf _ author, ih⟩

section Respond

variable {inbound : InboundMessage} {result : DispatchResult}

theorem respondWith_document {d : ExportPayload} (h : result.document = some d) :
    respondWith inbound result = deliverDocument inbound.externalChatId result.replyText d := by
  simp only [respondWith, h]

theorem respondWith_drafts {drafts : List SourceMessage} (h : result.document = none)
    (hdrafts : result.drafts = some drafts) :
    respondWith inbound result = (do
      let blocks ← renderDrafts inbound.communityId drafts
      deliverBlocks "drafts" inbound.externalChatId result.replyText blocks
      pure none) := by
  simp only [respondWith, h, hdrafts]

theorem respondWith_sources {chunks : List EventChunk} (h : result.document = none)
    (hdrafts : result.drafts = none) (hsources : result.sourceChunks = some chunks) :
    respondWith inbound result = (do
      let blocks ← renderSources inbound.communityId chunks.length 1 chunks
      deliverBlocks "sources" inbound.externalChatId result.replyText blocks
      pure none) := by
  simp only [respondWith, h, hdrafts, hsources]

theorem respondWith_text (h : result.document = none) (hdrafts : result.drafts = none)
    (hsources : result.sourceChunks = none) : respondWith inbound result = (do
      let payload ← EdgeProc.ofExcept
        (buildSendMessagePayload inbound.externalChatId result.replyText)
      pure (some payload)) := by
  simp only [respondWith, h, hdrafts, hsources]

variable {chat : Int}

theorem responded_nothing (t : List Sending) (e : Exn) :
    ∃ attempts, t = t ++ attempts ∧ Responded chat result (.error e) attempts :=
  ⟨[], (List.append_nil t).symm, .failed e⟩

theorem wp_deliverDocument {d : ExportPayload} (h : result.document = some d) (t : List Sending) :
    wp outbox (deliverDocument (toString chat) result.replyText d)
      (fun r t' => ∃ attempts, t' = t ++ attempts ∧ Responded chat result r attempts) t := by
  unfold deliverDocument
  rw [buildSendMessagePayload_toString]
  refine (wp_bind _ _ _ t).mpr ((wp_capture _ _ t).mpr ⟨trivial, ?_⟩)
  rintro r _ rfl
  cases r with
  | ok _ => exact ⟨_, rfl, .document h⟩
  | error e => exact ⟨_, rfl, .documentFailed h⟩

/-- A served message is answered once. -/
theorem wp_respondWith (hchat : inbound.externalChatId = toString chat) (t : List Sending) :
    wp outbox (respondWith inbound result)
      (fun r t' => ∃ attempts, t' = t ++ attempts ∧ Responded chat result r attempts) t := by
  cases hdocument : result.document with
  | some d =>
    rw [respondWith_document hdocument, hchat]
    exact wp_deliverDocument hdocument t
  | none =>
  cases hdrafts : result.drafts with
  | some drafts =>
    rw [respondWith_drafts hdocument hdrafts, hchat]
    refine wp_outbox_bind (silent_renderDrafts inbound.communityId drafts) (responded_nothing t)
      fun blocks hblocks => ?_
    exact responded_deliverBlocks (.drafts hdrafts hblocks)
      (forall_ne_empty draftBlock_ne_empty hblocks) t
  | none =>
  cases hsources : result.sourceChunks with
  | some chunks =>
    rw [respondWith_sources hdocument hdrafts hsources, hchat]
    refine wp_outbox_bind (silent_renderSources inbound.communityId chunks.length 1 chunks)
      (responded_nothing t) fun blocks hblocks => ?_
    exact responded_deliverBlocks (.sources hsources hblocks)
      (@forall_ne_empty (EventChunk × Nat) (fun e => sourceBlock e.1 e.2 chunks.length)
        (fun e => sourceBlock_ne_empty e.1 e.2 chunks.length) _ _ hblocks) t
  | none =>
    rw [respondWith_text hdocument hdrafts hsources, hchat, buildSendMessagePayload_toString]
    change ∃ attempts, t = t ++ attempts ∧
      Responded chat result (.ok (some ⟨chat, result.replyText⟩)) attempts
    exact ⟨[], (List.append_nil t).symm, .text hdocument hdrafts hsources⟩

end Respond

/-! ## Updates -/

section Updates

variable {B : Backend} {env : EdgeEnv} {α β : Type}

/-- The services run at the edge as they run alone. -/
theorem EdgeProc.exec_core (p : Proc α) (v : Edge B.State) :
    (EdgeProc.core p).exec B env v =
      ((p.exec B env.toEnv v.world).1, { v with world := (p.exec B env.toEnv v.world).2 }) := by
  have hrun : ∀ (q : Prog Call Reply (Except Exn α)) (v : Edge B.State),
      (q.hoist fun c => Prog.perform (R := EdgeReply) (.core c)).run (serveEdge B env) v =
        ((q.run (serve B env.toEnv) v.world).1,
          { v with world := (q.run (serve B env.toEnv) v.world).2 }) := by
    intro q
    induction q with
    | ret a => exact fun v => rfl
    | call c k ih => exact fun v => ih (serve B env.toEnv c v.world).1 _
  exact hrun p.run v

/-- A part that returned, then the rest. -/
theorem EdgeProc.exec_bind_ok {p : EdgeProc α} {f : α → EdgeProc β} {v w : Edge B.State} {a : α}
    (h : p.exec B env v = (.ok a, w)) : (p >>= f).exec B env v = (f a).exec B env w := by
  have hrun : Prog.run (serveEdge B env) p.run v = (.ok a, w) := h
  refine (Prog.run_bind (serveEdge B env) p.run _ v).trans ?_
  rw [hrun]
  rfl

/-- A part that raised. -/
theorem EdgeProc.exec_bind_error {p : EdgeProc α} {f : α → EdgeProc β} {v w : Edge B.State}
    {e : Exn} (h : p.exec B env v = (.error e, w)) : (p >>= f).exec B env v = (.error e, w) := by
  have hrun : Prog.run (serveEdge B env) p.run v = (.error e, w) := h
  refine (Prog.run_bind (serveEdge B env) p.run _ v).trans ?_
  rw [hrun]
  rfl

/-- What a procedure sends, from its contract. -/
theorem EdgeProc.sent_of_wp {p : EdgeProc α} {Q : Except Exn α → List Sending → Prop}
    {v : Edge B.State} (h : wp outbox p Q v.sent) :
    Q (p.exec B env v).1 (p.exec B env v).2.sent :=
  (Prog.run_of_wp outbox_meets p.run trivial h).2

theorem silent_captureDisplayInput (message : TelegramMessage) (inbound : InboundMessage)
    (route : RouteKind) :
    silent.Ensures (captureDisplayInput message inbound route) fun _ => True := by
  unfold captureDisplayInput
  split
  · have hsave : silent.Ensures (EdgeProc.saveAuthorDisplayInput (message.displayInput inbound))
        fun _ => True := ensures_port ⟨trivial, fun _ _ _ => trivial⟩
    exact ensures_bind _ (ensures_capture hsave) fun _ _ => ensures_pure trivial
  · exact ensures_pure trivial

/-- A message that is dispatched is answered once. -/
theorem message_answered (dispatcher : Dispatcher) {message : TelegramMessage}
    {inbound : InboundMessage} (hchat : inbound.externalChatId = toString message.chatId)
    (v : Edge B.State) :
    ∃ attempts, ((serveMessage dispatcher message inbound).exec B env v).2.sent =
        v.sent ++ attempts ∧
      (attempts = [] ∧ (∃ e, ((serveMessage dispatcher message inbound).exec B env v).1 = .error e) ∨
        ∃ result, ((dispatcher.dispatch inbound).exec B env.toEnv v.world).1 = .ok result ∧
          Responded message.chatId result
            ((serveMessage dispatcher message inbound).exec B env v).1 attempts) := by
  have hcore := @EdgeProc.exec_core B env _ (dispatcher.dispatch inbound) v
  unfold serveMessage
  cases hdispatch : ((dispatcher.dispatch inbound).exec B env.toEnv v.world).1 with
  | error e =>
    rw [hdispatch] at hcore
    rw [EdgeProc.exec_bind_error hcore]
    exact ⟨[], (List.append_nil _).symm, .inl ⟨rfl, e, rfl⟩⟩
  | ok result =>
    rw [hdispatch] at hcore
    have hwp : ∀ t, wp outbox (captureDisplayInput message inbound result.route >>= fun _ =>
        respondWith inbound result) (fun r t' => ∃ attempts, t' = t ++ attempts ∧
          Responded message.chatId result r attempts) t := fun t =>
      wp_outbox_bind (silent_captureDisplayInput message inbound result.route)
        (responded_nothing t) fun _ _ => wp_respondWith hchat t
    rw [EdgeProc.exec_bind_ok hcore]
    obtain ⟨attempts, hsent, hanswered⟩ := EdgeProc.sent_of_wp (hwp _)
    exact ⟨attempts, hsent, .inr ⟨result, rfl, hanswered⟩⟩

/-- What the webhook does with an update. -/
theorem telegramWebhook_cases (request : WebhookRequest) :
    (∃ e, telegramWebhook request = throw e) ∨
      (request.update.received = none ∧ telegramWebhook request = pure none) ∨
      ∃ message receivedAt, request.update.received = some message ∧
        DateTime.fromTimestamp? message.date = some receivedAt ∧
        telegramWebhook request =
          serveMessage request.dispatcher message (message.inbound receivedAt) := by
  unfold telegramWebhook
  cases verifySecret request.webhookSecret request.secretToken with
  | error e => exact .inl ⟨e, rfl⟩
  | ok _ =>
    cases request.update.received with
    | none => exact .inr (.inl ⟨rfl, rfl⟩)
    | some message =>
      cases htime : DateTime.fromTimestamp? message.date with
      | none =>
        refine .inl ⟨timestampError message.date, ?_⟩
        simp only [htime]
        rfl
      | some receivedAt =>
        refine .inr (.inr ⟨message, receivedAt, rfl, htime, ?_⟩)
        simp only [htime]
        rfl

/-- An update with a message that is served is answered once; any other sends nothing. -/
theorem update_answered (B : Backend) (env : EdgeEnv) (request : WebhookRequest)
    (v : Edge B.State) :
    let r := (telegramWebhook request).exec B env v
    ∃ attempts, r.2.sent = v.sent ++ attempts ∧
      (attempts = [] ∧ ((∃ e, r.1 = .error e) ∨ request.update.received = none ∧ r.1 = .ok none) ∨
        ∃ message receivedAt result, request.update.received = some message ∧
          DateTime.fromTimestamp? message.date = some receivedAt ∧
          ((request.dispatcher.dispatch (message.inbound receivedAt)).exec B env.toEnv v.world).1 =
            .ok result ∧
          Responded message.chatId result r.1 attempts) := by
  dsimp only
  rcases telegramWebhook_cases request with
    ⟨e, he⟩ | ⟨hnone, he⟩ | ⟨message, receivedAt, hmessage, htime, he⟩
  · rw [he]
    exact ⟨[], (List.append_nil _).symm, .inl ⟨rfl, .inl ⟨e, rfl⟩⟩⟩
  · rw [he]
    exact ⟨[], (List.append_nil _).symm, .inl ⟨rfl, .inr ⟨hnone, rfl⟩⟩⟩
  · rw [he]
    obtain ⟨attempts, hsent, ⟨hnone, herror⟩ | ⟨result, hresult, hanswered⟩⟩ :=
      @message_answered B env request.dispatcher message (message.inbound receivedAt) rfl v
    · exact ⟨attempts, hsent, .inl ⟨hnone, .inl herror⟩⟩
    · exact ⟨attempts, hsent, .inr ⟨message, receivedAt, result, hmessage, htime, hresult,
        hanswered⟩⟩

end Updates

end DiaryMemory
