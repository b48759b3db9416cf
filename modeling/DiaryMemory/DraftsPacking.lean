import DiaryMemory.Repository
import Mathlib.Order.Bounds.Basic
import Mathlib.Tactic.Linarith

/-!
# Packing the drafts

The drafts of a recall are sent as one message where they fit, and as several otherwise
(`packDraftsIntoMessages`). A draft above the cap is sent in parts of its own
(`splitOversized`), each with a footer that names it.

The parts are counted first, by a loop over their number `n` : the footer of `n` parts grows with
the digits of `n`, so the room of a body shrinks (`bodyCap_anti`) while the number of bodies
grows. Below `1` the loop raises; otherwise every round covers at least as many characters as
`n`, so it ends. `split_oversized` : the number it finds is the least one that covers the block, and
no part is empty.
-/

namespace DiaryMemory

/-! ## The packer -/

/-- `_DEFAULT_CAP`. -/
def defaultCap : Int := 4096

/-- `_DEFAULT_SEPARATOR`. -/
def defaultSeparator : String := "\n\n"

/-- `f"(part {k}/{n})"`. -/
def partFooter (k n : Nat) : String := "(part " ++ toString k ++ "/" ++ toString n ++ ")"

/-- The room of a body beside the widest footer of `n` parts. -/
def bodyCap (cap : Int) (separator : String) (n : Nat) : Int :=
  cap - (separator.length + (partFooter n n).length)

/-- `block[start:end]`. -/
def slice (block : String) (start stop : Nat) : String :=
  String.ofList ((block.toList.drop start).take (stop - start))

/-- The footer leaves no room for a body. -/
def noRoom (cap : Int) : Exn := .valueError ("cap=" ++ toString cap ++
  " too small to accommodate the part footer; increase cap or shorten the separator")

/-- The loop of `_split_oversized` over the number of parts of a block of `length` characters. -/
def partCount (cap : Int) (separator : String) (length n : Nat) : Except Exn Nat :=
  if bodyCap cap separator n < 1 then throw (noRoom cap)
  else if bodyCap cap separator n * n ≥ length then pure n
  else partCount cap separator length (n + 1)
termination_by length - n
decreasing_by
  have hcount : (n : Int) ≤ bodyCap cap separator n * n :=
    le_mul_of_one_le_left (by omega) (by omega)
  omega

/-- `_split_oversized`. -/
def splitOversized (block : String) (cap : Int) (separator : String) :
    Except Exn (List String) := do
  if ¬ block.length > cap then throw .assertionError
  let n ← partCount cap separator block.length 1
  let room := (bodyCap cap separator n).toNat
  pure ((List.range n).map fun k =>
    slice block (k * room) (k * room + room) ++ separator ++ partFooter (k + 1) n)

/-- One round of the loop of `pack_drafts_into_messages` : the messages so far and the one that is
begun, `""` for none. -/
def packBlock (cap : Int) (separator : String) :
    List String × String → String → Except Exn (List String × String)
  | (messages, current), block =>
    if block.length > cap then do
      let sent := if current ≠ "" then messages ++ [current] else messages
      let parts ← splitOversized block cap separator
      pure (sent ++ parts, "")
    else if current = "" then pure (messages, block)
    else if (current.length + separator.length + block.length : Int) ≤ cap then
      pure (messages, current ++ separator ++ block)
    else pure (messages ++ [current], block)

/-- `pack_drafts_into_messages`. -/
def packDraftsIntoMessages (header : String) (blocks : List String) (cap : Int)
    (separator : String) : Except Exn (List String) := do
  if cap < 1 then throw (.valueError "cap must be positive")
  if separator = "" then throw (.valueError "separator must be non-empty")
  let (messages, current) ← blocks.foldlM (packBlock cap separator) ([], header)
  let messages := if current ≠ "" then messages ++ [current] else messages
  pure (if messages = [] then [header] else messages)

/-! ## Footers -/

theorem length_repr_mono {k n : Nat} (h : k ≤ n) : k.repr.length ≤ n.repr.length :=
  (Nat.length_repr_le_iff Nat.length_repr_pos).mpr
    (h.trans_lt ((Nat.length_repr_le_iff Nat.length_repr_pos).mp le_rfl))

theorem length_partFooter (k n : Nat) :
    (partFooter k n).length = 8 + k.repr.length + n.repr.length := by
  have htext : ("(part ").length = 6 ∧ ("/").length = 1 ∧ (")").length = 1 := by decide
  rw [partFooter, String.length_append, String.length_append, String.length_append,
    String.length_append, htext.1, htext.2.1, htext.2.2]
  change 6 + k.repr.length + 1 + n.repr.length + 1 = _
  omega

section Count

variable {cap : Int} {separator : String} {length : Nat}

theorem bodyCap_anti {n m : Nat} (h : n ≤ m) :
    bodyCap cap separator m ≤ bodyCap cap separator n := by
  have hrepr := length_repr_mono h
  rw [bodyCap, bodyCap, length_partFooter, length_partFooter]
  omega

theorem bodyCap_lt (n : Nat) : bodyCap cap separator n < cap := by
  rw [bodyCap, length_partFooter]
  omega

/-- The parts of this number have room for the block. -/
def Covers (cap : Int) (separator : String) (length n : Nat) : Prop :=
  1 ≤ n ∧ (length : Int) ≤ bodyCap cap separator n * n

/-- From a number on at which a body has no room, no number of parts covers the block. -/
theorem not_covers_of_bodyCap (hlength : cap < length) {n m : Nat} (hnm : n ≤ m)
    (hroom : bodyCap cap separator n < 1) : ¬ Covers cap separator length m := by
  rintro ⟨hm, hcovers⟩
  have hanti : bodyCap cap separator m ≤ bodyCap cap separator n := bodyCap_anti hnm
  have hlt : bodyCap cap separator m < cap := bodyCap_lt m
  have hmul : bodyCap cap separator m * m ≤ bodyCap cap separator m * 1 :=
    mul_le_mul_of_nonpos_left (by omega) (by omega)
  omega

/-- What the loop finds from `n` on : the least number that covers the block, or no room. -/
theorem partCount_spec (hlength : cap < length) (n : Nat) (hn : 1 ≤ n) :
    (∃ m, partCount cap separator length n = .ok m ∧ n ≤ m ∧ Covers cap separator length m ∧
      ∀ k, n ≤ k → k < m → ¬ Covers cap separator length k) ∨
    (partCount cap separator length n = .error (noRoom cap) ∧
      ∀ k, n ≤ k → ¬ Covers cap separator length k) := by
  fun_induction partCount cap separator length n with
  | case1 n hroom =>
    exact .inr ⟨rfl, fun k hk => not_covers_of_bodyCap hlength hk hroom⟩
  | case2 n hroom hcovers =>
    exact .inl ⟨n, rfl, le_rfl, ⟨hn, hcovers⟩, fun k hk hlt => absurd hk (by omega)⟩
  | case3 n hroom hcovers ih =>
    have hhere : ¬ Covers cap separator length n := fun h => hcovers h.2
    rcases ih (by omega) with ⟨m, hm, hnm, hcover, hleast⟩ | ⟨herror, hnone⟩
    · refine .inl ⟨m, hm, by omega, hcover, fun k hk hlt => ?_⟩
      rcases hk.eq_or_lt with rfl | hk
      · exact hhere
      · exact hleast k hk hlt
    · refine .inr ⟨herror, fun k hk => ?_⟩
      rcases hk.eq_or_lt with rfl | hk
      · exact hhere
      · exact hnone k hk

/-- Where the block is covered, a body has room. -/
theorem one_le_bodyCap (hlength : cap < length) {n : Nat} (h : Covers cap separator length n) :
    1 ≤ bodyCap cap separator n := by
  by_contra hroom
  exact not_covers_of_bodyCap hlength le_rfl (by omega) h

/-- The least number of parts leaves none of them without characters. -/
theorem bodyCap_mul_pred_lt (hlength : cap < length) {n : Nat}
    (hleast : IsLeast {n | Covers cap separator length n} n) :
    bodyCap cap separator n * (n - 1 : Nat) < length := by
  obtain ⟨hcovers, hlower⟩ := hleast
  have hone : bodyCap cap separator 1 < cap := bodyCap_lt 1
  have hn : n ≠ 1 := by
    rintro rfl
    have := hcovers.2
    omega
  have hn' : 1 ≤ n - 1 := by
    have := hcovers.1
    omega
  have hprev : ¬ Covers cap separator length (n - 1) := fun h => by
    have := hlower h
    omega
  have hanti : bodyCap cap separator n ≤ bodyCap cap separator (n - 1) := bodyCap_anti (by omega)
  calc bodyCap cap separator n * (n - 1 : Nat)
      ≤ bodyCap cap separator (n - 1) * (n - 1 : Nat) :=
        mul_le_mul_of_nonneg_right hanti (by omega)
    _ < length := by
        by_contra h
        exact hprev ⟨hn', by omega⟩

end Count

/-! ## Bodies -/

theorem length_slice_le (block : String) (start stop : Nat) :
    (slice block start stop).length ≤ stop - start := by
  rw [slice, String.length_ofList]
  exact List.length_take_le _ _

theorem slice_ne_empty {block : String} {start stop : Nat} (hstart : start < block.length)
    (hstop : start < stop) : slice block start stop ≠ "" := by
  intro h
  have hlength : (slice block start stop).length = 0 := by rw [h]; rfl
  rw [slice, String.length_ofList, List.length_take, List.length_drop,
    String.length_toList] at hlength
  omega

/-- Slices of one length, one after the other. -/
theorem flatten_slices {α : Type} (room : Nat) (l : List α) : ∀ n : Nat,
    ((List.range n).map fun k => (l.drop (k * room)).take room).flatten = l.take (n * room)
  | 0 => by simp
  | n + 1 => by
    rw [List.range_succ, List.map_append, List.flatten_append, flatten_slices room l n,
      Nat.succ_mul, List.take_add]
    simp

/-- The bodies of `n` parts. -/
def bodies (block : String) (room n : Nat) : List String :=
  (List.range n).map fun k => slice block (k * room) (k * room + room)

theorem length_le_of_mem_bodies {block : String} {room n : Nat} {body : String}
    (h : body ∈ bodies block room n) : body.length ≤ room := by
  obtain ⟨k, -, rfl⟩ := List.mem_map.mp h
  exact (length_slice_le _ _ _).trans (by omega)

theorem join_bodies {block : String} {room n : Nat} (h : block.length ≤ n * room) :
    String.join (bodies block room n) = block := by
  have hslices : (bodies block room n).map String.toList =
      (List.range n).map fun k => (block.toList.drop (k * room)).take room := by
    rw [bodies, List.map_map]
    refine List.map_congr_left fun k _ => ?_
    simp [slice]
  rw [← String.toList_inj, String.toList_join, List.flatMap_def, hslices, flatten_slices]
  exact List.take_of_length_le (by rwa [String.length_toList])

/-! ## Parts -/

/-- The bodies with their footers. -/
def numbered (separator : String) (bodies : List String) : List String :=
  bodies.mapIdx fun k body => body ++ separator ++ partFooter (k + 1) bodies.length

@[simp]
theorem length_numbered (separator : String) (bodies : List String) :
    (numbered separator bodies).length = bodies.length := List.length_mapIdx

/-- The parts of an oversized block : as few as cover it, none of them too long or without
characters of the block, each with its number. -/
structure PartsOf (block : String) (cap : Int) (separator : String) (parts : List String) :
    Prop where
  least : IsLeast {n | Covers cap separator block.length n} parts.length
  length_le : ∀ part ∈ parts, (part.length : Int) ≤ cap
  bodies : ∃ bodies : List String, (∀ body ∈ bodies, body ≠ "") ∧ String.join bodies = block ∧
    parts = numbered separator bodies

/-- The parts the code makes, from their number. -/
theorem partsOf_of_least {block : String} {cap : Int} {separator : String}
    (hlength : cap < block.length) {n : Nat}
    (hleast : IsLeast {n | Covers cap separator block.length n} n) :
    PartsOf block cap separator
      (numbered separator (bodies block (bodyCap cap separator n).toNat n)) := by
  have hroom : 1 ≤ bodyCap cap separator n := one_le_bodyCap hlength hleast.1
  obtain ⟨room, hroomNat⟩ : ∃ room : Nat, bodyCap cap separator n = room :=
    ⟨_, (Int.toNat_of_nonneg (by omega)).symm⟩
  have hcovers : block.length ≤ n * room := by
    have := hleast.1.2
    rw [hroomNat] at this
    rw [Nat.mul_comm]
    exact_mod_cast this
  have hpred : (n - 1) * room < block.length := by
    have := bodyCap_mul_pred_lt hlength hleast
    rw [hroomNat] at this
    rw [Nat.mul_comm]
    exact_mod_cast this
  rw [hroomNat, Int.toNat_natCast]
  have hnumber : (bodies block room n).length = n := by
    rw [bodies, List.length_map, List.length_range]
  refine ⟨?_, fun part hpart => ?_, bodies block room n, fun body hbody => ?_,
    join_bodies hcovers, rfl⟩
  · rwa [length_numbered, hnumber]
  · obtain ⟨k, hk, rfl⟩ := List.mem_mapIdx.mp hpart
    have hkn : k + 1 ≤ n := by omega
    have hfooter : (partFooter (k + 1) n).length ≤ (partFooter n n).length := by
      have := length_repr_mono hkn
      rw [length_partFooter, length_partFooter]
      omega
    have hbody : ((bodies block room n)[k]).length ≤ room :=
      length_le_of_mem_bodies (List.getElem_mem hk)
    rw [bodyCap] at hroomNat
    rw [hnumber, String.length_append, String.length_append]
    omega
  · obtain ⟨k, hk, rfl⟩ := List.mem_map.mp hbody
    have hkn : k ≤ n - 1 := by
      have := List.mem_range.mp hk
      omega
    have hstart : k * room ≤ (n - 1) * room := Nat.mul_le_mul_right room hkn
    exact slice_ne_empty (by omega) (by omega)

/-- `_split_oversized` returns the parts of the block, or raises for want of room. -/
theorem splitOversized_spec {block : String} {cap : Int} {separator : String}
    (hlength : cap < block.length) :
    (∃ parts, splitOversized block cap separator = .ok parts ∧ PartsOf block cap separator parts) ∨
    (splitOversized block cap separator = .error (noRoom cap) ∧
      ∀ n, ¬ Covers cap separator block.length n) := by
  have hguard : ¬ ¬ (block.length : Int) > cap := not_not.mpr hlength
  rcases @partCount_spec cap separator block.length hlength 1 le_rfl with
    ⟨n, hn, -, hcovers, hleast⟩ | ⟨herror, hnone⟩
  · refine .inl ⟨_, ?_, partsOf_of_least hlength ⟨hcovers, fun m hm => ?_⟩⟩
    · rw [splitOversized, if_neg hguard, hn]
      refine congrArg Except.ok ?_
      simp [numbered, bodies, List.ext_getElem_iff]
    · by_contra hlt
      exact hleast m hm.1 (by omega) hm
  · refine .inr ⟨?_, fun n hn => hnone n hn.1 hn⟩
    rw [splitOversized, if_neg hguard, herror]
    rfl

/-- A number of parts with room for `4000000000` characters. -/
theorem covers_default {length : Nat} (h : length < 4000000000) :
    Covers defaultCap defaultSeparator length 999999 := by
  have hroom : bodyCap defaultCap defaultSeparator 999999 = 4074 := by decide +kernel
  refine ⟨by omega, ?_⟩
  rw [hroom]
  omega

/-- An oversized block is split into the least number of parts that have room for it, or no
number of parts has room and the split raises. With the default cap and separator it never raises
below `4000000000` characters. -/
theorem split_oversized (block : String) (cap : Int) (separator : String)
    (hlength : cap < block.length) :
    ((∃ parts, splitOversized block cap separator = .ok parts ∧
        PartsOf block cap separator parts) ∨
      (splitOversized block cap separator = .error (noRoom cap) ∧
        ∀ n, ¬ Covers cap separator block.length n)) ∧
    (cap = defaultCap → separator = defaultSeparator → block.length < 4000000000 →
      ∃ parts, splitOversized block cap separator = .ok parts) := by
  refine ⟨splitOversized_spec hlength, ?_⟩
  rintro rfl rfl hshort
  rcases splitOversized_spec hlength with ⟨parts, hparts, -⟩ | ⟨-, hnone⟩
  · exact ⟨parts, hparts⟩
  · exact absurd (covers_default hshort) (hnone 999999)

/-- Three parts : with eight characters each they have room for all. -/
theorem split_oversized_letters :
    ∃ parts, splitOversized "abcdefghijklmnopqrstuvw" 20 defaultSeparator = .ok parts ∧
      parts = ["abcdefgh\n\n(part 1/3)", "ijklmnop\n\n(part 2/3)", "qrstuvw\n\n(part 3/3)"] := by
  rcases (split_oversized "abcdefghijklmnopqrstuvw" 20 defaultSeparator (by decide)).1 with
    ⟨parts, hparts, hof⟩ | ⟨-, hnone⟩
  · refine ⟨parts, hparts, ?_⟩
    have hrun : splitOversized "abcdefghijklmnopqrstuvw" 20 defaultSeparator =
        .ok ["abcdefgh\n\n(part 1/3)", "ijklmnop\n\n(part 2/3)", "qrstuvw\n\n(part 3/3)"] := by
      decide +kernel
    exact Except.ok.inj (hparts.symm.trans hrun)
  · exact absurd ⟨by decide, by decide +kernel⟩ (hnone 3)

end DiaryMemory
