import DiaryMemory.DraftsPacking
import DiaryMemory.Greedy
import DiaryMemory.Parsing

/-!
# What the packed drafts are

The messages are the greedy groups of the header and the blocks (`foldlM_packBlock`) : a
group is sent as one message, or it is one oversized block, which is sent in parts. So the
packing is a cut of the items into pieces (`Piece`), and no cut has fewer. A header above the cap
is no item : it is sent whole, before the pieces of the blocks (`packed_of_overlong`).
-/

namespace DiaryMemory

/-! ## Joins -/

theorem length_intercalate_append_left (separator : String) (l m : List String) :
    (separator.intercalate l).length ≤ (separator.intercalate (l ++ m)).length := by
  by_cases hl : l = []
  · subst hl
    simp
  by_cases hm : m = []
  · rw [hm, List.append_nil]
  rw [String.intercalate_append_of_ne_nil hl hm, String.length_append, String.length_append]
  omega

theorem length_intercalate_append_right (separator : String) (l m : List String) :
    (separator.intercalate m).length ≤ (separator.intercalate (l ++ m)).length := by
  by_cases hl : l = []
  · rw [hl, List.nil_append]
  by_cases hm : m = []
  · subst hm
    simp
  rw [String.intercalate_append_of_ne_nil hl hm, String.length_append, String.length_append]
  omega

/-- The join of items with characters has characters. -/
theorem intercalate_ne_empty {separator : String} {items : List String} (hne : items ≠ [])
    (h : ∀ item ∈ items, item ≠ "") : separator.intercalate items ≠ "" := by
  obtain ⟨item, items, rfl⟩ := List.exists_cons_of_ne_nil hne
  intro hempty
  have hlength := length_intercalate_append_left separator [item] items
  rw [String.intercalate_singleton, List.singleton_append, hempty, String.length_empty,
    Nat.le_zero, String.length_eq_zero_iff] at hlength
  exact h item List.mem_cons_self hlength

section Groups

variable (cap : Int) (separator : String)

/-- The items may be sent as one message. -/
def JoinFits (items : List String) : Prop := (separator.intercalate items).length ≤ cap

instance : DecidablePred (JoinFits cap separator) := fun items =>
  inferInstanceAs (Decidable (((separator.intercalate items).length : Int) ≤ cap))

/-- A group of items : they may be sent as one message, or there is nothing to cut. -/
def GroupFits (items : List String) : Prop := JoinFits cap separator items ∨ items.length ≤ 1

instance : DecidablePred (GroupFits cap separator) := fun items =>
  inferInstanceAs (Decidable (JoinFits cap separator items ∨ items.length ≤ 1))

/-- The messages of a group. -/
def groupMessages (items : List String) : Except Exn (List String) :=
  if JoinFits cap separator items then pure [separator.intercalate items]
  else splitOversized (separator.intercalate items) cap separator

/-- The message that is begun is sent last. -/
def sendLast (sent : List String × String) : Except Exn (List String) :=
  .ok (if sent.2 ≠ "" then sent.1 ++ [sent.2] else sent.1)

/-- The messages of groups, after those already sent. -/
def sendGroups (messages : List String) (gs : List (List String)) : Except Exn (List String) := do
  let sent ← gs.mapM (groupMessages cap separator)
  pure (messages ++ sent.flatten)

variable {cap separator}

theorem JoinFits.of_infix {g g' : List String} (hin : g <:+: g') (h : JoinFits cap separator g') :
    JoinFits cap separator g := by
  obtain ⟨before, after, rfl⟩ := hin
  have hleft := length_intercalate_append_left separator (before ++ g) after
  have hright := length_intercalate_append_right separator before g
  unfold JoinFits at h ⊢
  omega

theorem GroupFits.of_infix (g g' : List String) (hin : g <:+: g')
    (h : GroupFits cap separator g') : GroupFits cap separator g := by
  rcases h with h | h
  · exact .inl (h.of_infix hin)
  · exact .inr (hin.length_le.trans h)

theorem groupFits_singleton (item : String) : GroupFits cap separator [item] := .inr le_rfl

theorem joinFits_singleton {item : String} : JoinFits cap separator [item] ↔ item.length ≤ cap := by
  rw [JoinFits, String.intercalate_singleton]

theorem joinFits_nil (hcap : 1 ≤ cap) : JoinFits cap separator [] := by
  rw [JoinFits, String.intercalate_nil, String.length_empty]
  omega

/-- No item joins an oversized one. -/
theorem not_groupFits_of_oversized {l m : List String} {block : String} (hlm : l ++ m ≠ [])
    (hblock : cap < block.length) : ¬ GroupFits cap separator (l ++ block :: m) := by
  rintro (h | h)
  · have hone : JoinFits cap separator [block] := h.of_infix ⟨l, m, by simp⟩
    exact absurd (joinFits_singleton.mp hone) (by omega)
  · refine hlm (List.length_eq_zero_iff.mp ?_)
    rw [List.length_append, List.length_cons] at h
    rw [List.length_append]
    omega

/-! ## The loop -/

theorem sendGroups_cons (messages : List String) (g : List String) (gs : List (List String)) :
    sendGroups cap separator messages (g :: gs) =
      groupMessages cap separator g >>= fun out =>
        sendGroups cap separator (messages ++ out) gs := by
  rw [sendGroups, List.mapM_cons]
  cases groupMessages cap separator g with
  | error e => rfl
  | ok out =>
    change (gs.mapM (groupMessages cap separator) >>= fun sent => .ok (out :: sent)) >>= _ =
      gs.mapM (groupMessages cap separator) >>= fun sent => .ok (messages ++ out ++ sent.flatten)
    cases gs.mapM (groupMessages cap separator) with
    | error e => rfl
    | ok sent => exact congrArg Except.ok (by rw [List.flatten_cons, List.append_assoc])

theorem groupMessages_of_fits {g : List String} (h : JoinFits cap separator g) :
    groupMessages cap separator g = .ok [separator.intercalate g] := if_pos h

theorem groupMessages_oversized {block : String} (h : cap < block.length) :
    groupMessages cap separator [block] = splitOversized block cap separator := by
  have hnot : ¬ JoinFits cap separator [block] := fun hfits =>
    absurd (joinFits_singleton.mp hfits) (by omega)
  rw [groupMessages, if_neg hnot, String.intercalate_singleton]

/-- The groups of an oversized block : it ends the one that is begun, and its own. -/
theorem groups_oversized {cur blocks : List String} {block : String} (h : cap < block.length) :
    Greedy.groups (GroupFits cap separator) cur (block :: blocks) =
      (if cur = [] then [] else [cur]) ++
        [block] :: Greedy.groups (GroupFits cap separator) [] blocks := by
  have hown : Greedy.groups (GroupFits cap separator) [block] blocks =
      [block] :: Greedy.groups (GroupFits cap separator) [] blocks :=
    Greedy.groups_of_full (by simp) fun x _ =>
      not_groupFits_of_oversized (l := []) (m := [x]) (by simp) h
  by_cases hcur : cur = []
  · rw [Greedy.groups, if_pos hcur, if_pos hcur, hown, List.nil_append]
  · have hfull : ¬ GroupFits cap separator (cur ++ [block]) :=
      not_groupFits_of_oversized (by simpa using hcur) h
    rw [Greedy.groups, if_neg hcur, if_neg hfull, if_neg hcur, hown, List.singleton_append]

/-! ## The rounds -/

section Rounds

variable {messages : List String} {current block : String}

theorem packBlock_oversized (h : cap < block.length) :
    packBlock cap separator (messages, current) block =
      splitOversized block cap separator >>= fun parts =>
        .ok ((if current ≠ "" then messages ++ [current] else messages) ++ parts, "") := by
  rw [packBlock, if_pos h]
  rfl

theorem packBlock_first (h : ¬ cap < block.length) :
    packBlock cap separator (messages, "") block = .ok (messages, block) := by
  rw [packBlock, if_neg h, if_pos rfl]
  rfl

theorem packBlock_joined (h : ¬ cap < block.length) (hcurrent : current ≠ "")
    (hroom : (current.length + separator.length + block.length : Int) ≤ cap) :
    packBlock cap separator (messages, current) block =
      .ok (messages, current ++ separator ++ block) := by
  rw [packBlock, if_neg h, if_neg hcurrent, if_pos hroom]
  rfl

theorem packBlock_next (h : ¬ cap < block.length) (hcurrent : current ≠ "")
    (hroom : ¬ (current.length + separator.length + block.length : Int) ≤ cap) :
    packBlock cap separator (messages, current) block = .ok (messages ++ [current], block) := by
  rw [packBlock, if_neg h, if_neg hcurrent, if_neg hroom]
  rfl

end Rounds

theorem intercalate_concat {cur : List String} (hcur : cur ≠ []) (block : String) :
    separator.intercalate (cur ++ [block]) = separator.intercalate cur ++ separator ++ block := by
  rw [String.intercalate_append_of_ne_nil hcur (List.cons_ne_nil _ _),
    String.intercalate_singleton]

theorem joinFits_concat {cur : List String} (hcur : cur ≠ []) (block : String) :
    JoinFits cap separator (cur ++ [block]) ↔
      ((separator.intercalate cur).length + separator.length + block.length : Int) ≤ cap := by
  rw [JoinFits, intercalate_concat hcur, String.length_append, String.length_append]
  omega

theorem groupFits_concat {cur : List String} (hcur : cur ≠ []) (block : String) :
    GroupFits cap separator (cur ++ [block]) ↔ JoinFits cap separator (cur ++ [block]) := by
  refine ⟨fun h => h.resolve_right fun hlength => ?_, .inl⟩
  have := List.length_pos_iff.mpr hcur
  rw [List.length_append, List.length_singleton] at hlength
  omega

/-- The groups of an oversized block, after the message that is begun. -/
theorem sendGroups_oversized {messages cur blocks : List String} {block : String}
    (h : cap < block.length) (hempty : separator.intercalate cur = "" ↔ cur = [])
    (hfits : JoinFits cap separator cur) :
    sendGroups cap separator messages
        (Greedy.groups (GroupFits cap separator) cur (block :: blocks)) =
      splitOversized block cap separator >>= fun parts => sendGroups cap separator
        ((if separator.intercalate cur ≠ "" then messages ++ [separator.intercalate cur]
          else messages) ++ parts) (Greedy.groups (GroupFits cap separator) [] blocks) := by
  rw [groups_oversized h]
  by_cases hcur : cur = []
  · rw [if_pos hcur, if_neg (not_not.mpr (hempty.mpr hcur)), List.nil_append, sendGroups_cons,
      groupMessages_oversized h]
  · rw [if_neg hcur, if_pos fun h => hcur (hempty.mp h), List.singleton_append, sendGroups_cons,
      groupMessages_of_fits hfits]
    change sendGroups cap separator _ ([block] :: _) = _
    rw [sendGroups_cons, groupMessages_oversized h]

/-- The loop sends the greedy groups. -/
theorem foldlM_packBlock (hcap : 1 ≤ cap) (blocks : List String) (hblocks : ∀ b ∈ blocks, b ≠ "") :
    ∀ (messages cur : List String), (∀ item ∈ cur, item ≠ "") → JoinFits cap separator cur →
      blocks.foldlM (packBlock cap separator) (messages, separator.intercalate cur) >>= sendLast =
        sendGroups cap separator messages (Greedy.groups (GroupFits cap separator) cur blocks) := by
  induction blocks with
  | nil =>
    intro messages cur hitems hfits
    rw [List.foldlM_nil, Greedy.groups]
    by_cases hcur : cur = []
    · subst hcur
      exact congrArg Except.ok (List.append_nil messages).symm
    · rw [if_neg hcur, sendGroups_cons, groupMessages_of_fits hfits]
      change Except.ok (if _ then _ else _) = Except.ok (_ ++ [].flatten)
      rw [if_pos (intercalate_ne_empty hcur hitems), List.flatten_nil, List.append_nil]
  | cons block blocks ih =>
    intro messages cur hitems hfits
    have hempty : separator.intercalate cur = "" ↔ cur = [] := by
      refine ⟨fun h => ?_, fun h => by rw [h, String.intercalate_nil]⟩
      by_contra hcur
      exact intercalate_ne_empty hcur hitems h
    replace ih := ih fun b hb => hblocks b (List.mem_cons_of_mem block hb)
    rw [List.foldlM_cons]
    by_cases hover : cap < block.length
    · rw [packBlock_oversized hover, sendGroups_oversized hover hempty hfits]
      cases splitOversized block cap separator with
      | error e => rfl
      | ok parts => exact ih _ [] (by simp) (joinFits_nil hcap)
    have hfits' : JoinFits cap separator [block] := joinFits_singleton.mpr (by omega)
    have hitems' : ∀ item ∈ [block], item ≠ "" := fun item hitem =>
      List.mem_singleton.mp hitem ▸ hblocks block List.mem_cons_self
    by_cases hcur : cur = []
    · rw [hempty.mpr hcur, packBlock_first hover, Greedy.groups, if_pos hcur]
      have hrun := ih messages [block] hitems' hfits'
      rwa [String.intercalate_singleton] at hrun
    have hbegun : separator.intercalate cur ≠ "" := fun h => hcur (hempty.mp h)
    rw [Greedy.groups, if_neg hcur]
    by_cases hjoined : JoinFits cap separator (cur ++ [block])
    · rw [packBlock_joined hover hbegun ((joinFits_concat hcur block).mp hjoined),
        if_pos ((groupFits_concat hcur block).mpr hjoined), ← intercalate_concat hcur]
      exact ih messages (cur ++ [block])
        (fun item hitem => (List.mem_append.mp hitem).elim (hitems item) (hitems' item)) hjoined
    · rw [packBlock_next hover hbegun fun h => hjoined ((joinFits_concat hcur block).mpr h),
        if_neg fun h => hjoined ((groupFits_concat hcur block).mp h), sendGroups_cons,
        groupMessages_of_fits hfits]
      have hrun := ih (messages ++ [separator.intercalate cur]) [block] hitems' hfits'
      rwa [String.intercalate_singleton] at hrun

end Groups

/-! ## Pieces -/

/-- A message of whole items, or an oversized block with the bodies of its parts. -/
inductive Piece where
  | whole (items : List String)
  | parts (block : String) (bodies : List String)

namespace Piece

def items : Piece → List String
  | whole items => items
  | parts block _ => [block]

def messages (separator : String) : Piece → List String
  | whole items => [separator.intercalate items]
  | parts _ bodies => numbered separator bodies

/-- Whole items may be sent as one message; the bodies of an oversized block are the block. -/
def Sound (cap : Int) (separator : String) : Piece → Prop
  | whole items => items ≠ [] ∧ JoinFits cap separator items
  | parts block bodies => cap < block.length ∧ (∀ body ∈ bodies, body ≠ "") ∧
      String.join bodies = block ∧ ∀ m ∈ numbered separator bodies, (m.length : Int) ≤ cap

variable {cap : Int} {separator : String} {p : Piece}

theorem Sound.length_le (h : p.Sound cap separator) :
    ∀ m ∈ p.messages separator, (m.length : Int) ≤ cap := by
  cases p with
  | whole items =>
    intro m hm
    rw [List.mem_singleton.mp hm]
    exact h.2
  | parts block bodies => exact h.2.2.2

theorem Sound.messages_ne_nil (hcap : 1 ≤ cap) (h : p.Sound cap separator) :
    p.messages separator ≠ [] := by
  cases p with
  | whole items => exact List.cons_ne_nil _ _
  | parts block bodies =>
    obtain ⟨hover, -, hjoin, -⟩ := h
    rintro hnil
    have hbodies : bodies = [] := by
      rw [← List.length_eq_zero_iff, ← length_numbered separator bodies]
      exact List.length_eq_zero_iff.mpr hnil
    rw [← hjoin, hbodies] at hover
    have hempty : (String.join []).length = 0 := rfl
    omega

theorem Sound.groupFits (h : p.Sound cap separator) : GroupFits cap separator p.items := by
  cases p with
  | whole items => exact .inl h.2
  | parts block bodies => exact groupFits_singleton block

end Piece

section Pieces

variable {cap : Int} {separator : String}

/-- The messages of a group are those of a piece. -/
theorem piece_of_groupMessages {g out : List String} (hne : g ≠ [])
    (hfits : GroupFits cap separator g) (h : groupMessages cap separator g = .ok out) :
    ∃ p : Piece, p.Sound cap separator ∧ p.items = g ∧ p.messages separator = out := by
  by_cases hjoin : JoinFits cap separator g
  · rw [groupMessages_of_fits hjoin] at h
    exact ⟨.whole g, ⟨hne, hjoin⟩, rfl, Except.ok.inj h⟩
  · obtain ⟨block, rfl⟩ : ∃ block, g = [block] := by
      have := List.length_pos_iff.mpr hne
      exact List.length_eq_one_iff.mp (by have := hfits.resolve_left hjoin; omega)
    have hover : cap < block.length := by
      rw [joinFits_singleton] at hjoin
      omega
    rw [groupMessages_oversized hover] at h
    rcases @splitOversized_spec block cap separator hover with
      ⟨parts, hparts, hof⟩ | ⟨herror, -⟩
    · obtain rfl := Except.ok.inj (hparts.symm.trans h)
      obtain ⟨bodies, hbodies, hblock, rfl⟩ := hof.bodies
      exact ⟨.parts block bodies, ⟨hover, hbodies, hblock, hof.length_le⟩, rfl, rfl⟩
    · cases herror.symm.trans h

theorem pieces_of_mapM : ∀ {gs sent : List (List String)},
    (∀ g ∈ gs, g ≠ [] ∧ GroupFits cap separator g) →
    gs.mapM (groupMessages cap separator) = .ok sent →
    ∃ pieces : List Piece, (∀ p ∈ pieces, p.Sound cap separator) ∧ pieces.map Piece.items = gs ∧
      pieces.map (Piece.messages separator) = sent
  | [], sent, _, h => ⟨[], by simp, rfl, Except.ok.inj h⟩
  | g :: gs, sent, hgs, h => by
    rw [List.mapM_cons] at h
    obtain ⟨out, hout, h⟩ := ok_of_bind h
    obtain ⟨rest, hrest, h⟩ := ok_of_bind h
    obtain rfl := Except.ok.inj h
    obtain ⟨p, hp, rfl, rfl⟩ := piece_of_groupMessages (hgs g List.mem_cons_self).1
      (hgs g List.mem_cons_self).2 hout
    obtain ⟨pieces, hpieces, rfl, rfl⟩ := pieces_of_mapM
      (fun g' hg' => hgs g' (List.mem_cons_of_mem _ hg')) hrest
    exact ⟨p :: pieces, List.forall_mem_cons.mpr ⟨hp, hpieces⟩, rfl, rfl⟩

end Pieces

/-- The pieces are a cut of the items, and no other cut has fewer. -/
structure Packed (cap : Int) (separator : String) (items : List String) (pieces : List Piece) :
    Prop where
  sound : ∀ p ∈ pieces, p.Sound cap separator
  /-- No item is lost, doubled or moved, nor cut unless it is oversized. -/
  cut : pieces.flatMap Piece.items = items
  fewest : ∀ other : List Piece, (∀ p ∈ other, p.Sound cap separator) →
    other.flatMap Piece.items = items → pieces.length ≤ other.length
  /-- Between oversized blocks, no other messages of whole items are fewer. -/
  stretch : ∀ (before after : List Piece) (run run' : List (List String)),
    pieces = before ++ run.map Piece.whole ++ after → (∀ g ∈ run', JoinFits cap separator g) →
      run'.flatten = run.flatten → run.length ≤ run'.length

/-- Greedy pieces are a cut with the fewest pieces. -/
theorem packed_of_greedy {cap : Int} {separator : String} {items : List String}
    {pieces : List Piece} (hsound : ∀ p ∈ pieces, p.Sound cap separator)
    (hgreedy : Greedy.IsGreedy (GroupFits cap separator) (pieces.map Piece.items))
    (hcut : (pieces.map Piece.items).flatten = items) : Packed cap separator items pieces := by
  refine ⟨hsound, hcut, fun other hother hitems => ?_,
    fun before after run run' hpieces hfits hflatten => ?_⟩
  · have hfits : ∀ g ∈ other.map Piece.items, GroupFits cap separator g :=
      List.forall_mem_map.mpr fun p hp => (hother p hp).groupFits
    have hlength := hgreedy.length_le GroupFits.of_infix hfits (hitems.trans hcut.symm)
    rwa [List.length_map, List.length_map] at hlength
  · have hrun : run <:+: pieces.map Piece.items := by
      refine ⟨before.map Piece.items, after.map Piece.items, ?_⟩
      rw [hpieces, List.map_append, List.map_append, List.map_map]
      exact congrArg (_ ++ · ++ _) (List.map_id run).symm
    exact (hgreedy.of_infix hrun).length_le GroupFits.of_infix
      (fun g hg => .inl (hfits g hg)) hflatten

/-- One piece is enough for items that may be sent as one message. -/
theorem Packed.eq_whole {cap : Int} {separator : String} {items : List String}
    {pieces : List Piece} (h : Packed cap separator items pieces) (hne : items ≠ [])
    (hfits : JoinFits cap separator items) : pieces = [.whole items] := by
  have hlength : pieces.length ≤ 1 := h.fewest [.whole items]
    (fun p hp => by rw [List.mem_singleton.mp hp]; exact ⟨hne, hfits⟩) (by simp [Piece.items])
  match pieces, hlength with
  | [], _ => exact absurd h.cut.symm hne
  | [.whole items'], _ =>
    have hcut : items' ++ [] = items := h.cut
    rw [← hcut, List.append_nil]
  | [.parts block bodies], _ =>
    have hcut : [block] = items := h.cut
    have hover : cap < block.length := (h.sound _ List.mem_cons_self).1
    rw [← hcut, joinFits_singleton] at hfits
    omega

/-! ## With or without a header -/

/-- What is packed; an empty header is not sent. -/
def packedItems (header : String) (blocks : List String) : List String :=
  if header = "" then blocks else header :: blocks

section Packing

variable {cap : Int} {separator header : String} {cur blocks messages : List String}

/-- The greedy groups are sent as the messages of a cut into as few pieces as possible. -/
theorem packed_of_sent {first : List String} (hcur : JoinFits cap separator cur)
    (h : sendGroups cap separator first (Greedy.groups (GroupFits cap separator) cur blocks) =
      .ok messages) :
    ∃ pieces, Packed cap separator (cur ++ blocks) pieces ∧
      messages = first ++ pieces.flatMap (Piece.messages separator) := by
  obtain ⟨out, hout, hflat⟩ := ok_of_bind h
  have hgreedy := @Greedy.isGreedy_groups _ (GroupFits cap separator) _ cur blocks
  have hgroups : ∀ g ∈ Greedy.groups (GroupFits cap separator) cur blocks,
      g ≠ [] ∧ GroupFits cap separator g := fun g hg =>
    ⟨hgreedy.nonempty g hg, Greedy.fits_of_mem_groups groupFits_singleton (.inl hcur) hg⟩
  obtain ⟨pieces, hsound, hpieces, rfl⟩ := pieces_of_mapM hgroups hout
  exact ⟨pieces, packed_of_greedy hsound (hpieces ▸ hgreedy)
    (by rw [hpieces, Greedy.flatten_groups]), (Except.ok.inj hflat).symm⟩

/-- What the loop sends is the packing, where it sends something. -/
theorem sent_of_pack (h : packDraftsIntoMessages header blocks cap separator = .ok messages) :
    1 ≤ cap ∧ ∃ sent, blocks.foldlM (packBlock cap separator) ([], header) >>= sendLast = .ok sent ∧
      messages = if sent = [] then [header] else sent := by
  rw [packDraftsIntoMessages] at h
  split at h
  · cases h
  next hcap =>
  split at h
  · cases h
  obtain ⟨⟨sent, current⟩, hloop, hlast⟩ := ok_of_bind h
  rw [hloop]
  exact ⟨by omega, _, rfl, (Except.ok.inj hlast).symm⟩

/-- The messages are those of a cut of the items into as few pieces as possible. -/
theorem packed_of_pack (hfits : header.length ≤ cap) (hblocks : ∀ b ∈ blocks, b ≠ "")
    (hitems : packedItems header blocks ≠ [])
    (h : packDraftsIntoMessages header blocks cap separator = .ok messages) :
    ∃ pieces, Packed cap separator (packedItems header blocks) pieces ∧
      messages = pieces.flatMap (Piece.messages separator) := by
  obtain ⟨cur, hjoin, hcur, hall⟩ : ∃ cur : List String, separator.intercalate cur = header ∧
      (∀ item ∈ cur, item ≠ "") ∧ cur ++ blocks = packedItems header blocks := by
    unfold packedItems
    by_cases hempty : header = ""
    · exact ⟨[], by rw [hempty, String.intercalate_nil], by simp, by rw [if_pos hempty]; rfl⟩
    · exact ⟨[header], String.intercalate_singleton, by simpa using hempty,
        by rw [if_neg hempty]; rfl⟩
  have hcurfits : JoinFits cap separator cur := by
    rw [JoinFits, hjoin]
    exact hfits
  obtain ⟨hcap, sent, hsent, rfl⟩ := sent_of_pack h
  have hrun := foldlM_packBlock hcap blocks hblocks [] cur hcur hcurfits
  rw [hjoin, hsent] at hrun
  obtain ⟨pieces, hpacked, rfl⟩ := packed_of_sent hcurfits hrun.symm
  refine ⟨pieces, hall ▸ hpacked, ?_⟩
  rw [List.nil_append, if_neg]
  intro hnone
  cases pieces with
  | nil => exact hitems (hall ▸ hpacked.cut.symm)
  | cons p pieces =>
    exact (hpacked.sound p List.mem_cons_self).messages_ne_nil hcap
      (List.append_eq_nil_iff.mp hnone).1

/-- A header above the cap is sent before any block is looked at. -/
theorem packBlock_overlong (h : cap < header.length) (hheader : header ≠ "") (block : String) :
    packBlock cap separator ([], header) block = packBlock cap separator ([header], "") block := by
  by_cases hover : cap < block.length
  · rw [packBlock_oversized hover, packBlock_oversized hover, if_pos hheader]
    rfl
  · rw [packBlock_next hover hheader (by omega), packBlock_first hover]
    rfl

/-- A header above the cap is a message of its own, before those of a cut of the blocks. -/
theorem packed_of_overlong (hover : cap < header.length) (hblocks : ∀ b ∈ blocks, b ≠ "")
    (h : packDraftsIntoMessages header blocks cap separator = .ok messages) :
    ∃ pieces, Packed cap separator blocks pieces ∧
      messages = header :: pieces.flatMap (Piece.messages separator) := by
  obtain ⟨hcap, sent, hsent, rfl⟩ := sent_of_pack h
  have hheader : header ≠ "" := by
    rintro rfl
    rw [String.length_empty] at hover
    omega
  have hstart : blocks.foldlM (packBlock cap separator) ([], header) >>= sendLast =
      blocks.foldlM (packBlock cap separator) ([header], "") >>= sendLast := by
    cases blocks with
    | nil => exact congrArg Except.ok (if_pos hheader)
    | cons block blocks => rw [List.foldlM_cons, List.foldlM_cons, packBlock_overlong hover hheader]
  have hrun := @foldlM_packBlock cap separator hcap blocks hblocks [header] [] (by simp)
    (joinFits_nil hcap)
  rw [String.intercalate_nil, ← hstart, hsent] at hrun
  obtain ⟨pieces, hpacked, rfl⟩ := packed_of_sent (joinFits_nil hcap) hrun.symm
  exact ⟨pieces, hpacked, if_neg (List.cons_ne_nil _ _)⟩

end Packing

/-- The messages of the packing are those of a cut of the header and the blocks into as few pieces
as possible : messages of whole items, and oversized blocks in parts. -/
theorem pack_drafts (header : String) (blocks : List String) (cap : Int) (separator : String)
    (messages : List String) (hheader : header ≠ "") (hfits : header.length ≤ cap)
    (hblocks : ∀ b ∈ blocks, b ≠ "")
    (h : packDraftsIntoMessages header blocks cap separator = .ok messages) :
    (∀ m ∈ messages, (m.length : Int) ≤ cap) ∧
    (∃ pieces, Packed cap separator (header :: blocks) pieces ∧
      messages = pieces.flatMap (Piece.messages separator)) ∧
    (JoinFits cap separator (header :: blocks) →
      messages = [separator.intercalate (header :: blocks)]) := by
  have hitems : packedItems header blocks = header :: blocks := if_neg hheader
  obtain ⟨pieces, hpacked, hmessages⟩ :=
    packed_of_pack hfits hblocks (hitems ▸ List.cons_ne_nil _ _) h
  rw [hitems] at hpacked
  refine ⟨fun m hm => ?_, ⟨pieces, hpacked, hmessages⟩, fun hall => ?_⟩
  · rw [hmessages] at hm
    obtain ⟨p, hp, hm⟩ := List.mem_flatMap.mp hm
    exact (hpacked.sound p hp).length_le m hm
  · rw [hmessages, hpacked.eq_whole (List.cons_ne_nil _ _) hall]
    rfl

/-- An oversized block between two others : the header and the first block share a message. -/
theorem pack_drafts_oversized :
    let messages := ["Drafts:\n\nwalk", "abcdefgh\n\n(part 1/3)", "ijklmnop\n\n(part 2/3)",
      "qrstuvw\n\n(part 3/3)", "rain"]
    packDraftsIntoMessages "Drafts:" ["walk", "abcdefghijklmnopqrstuvw", "rain"] 20
      defaultSeparator = .ok messages ∧ ∀ m ∈ messages, (m.length : Int) ≤ 20 := by
  intro messages
  have hrun : packDraftsIntoMessages "Drafts:" ["walk", "abcdefghijklmnopqrstuvw", "rain"] 20
      defaultSeparator = .ok messages := by decide +kernel
  exact ⟨hrun, (pack_drafts "Drafts:" _ 20 defaultSeparator messages (by decide) (by decide)
    (by decide) hrun).1⟩

end DiaryMemory
