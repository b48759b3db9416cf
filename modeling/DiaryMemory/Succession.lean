import DiaryMemory.Durability
import DiaryMemory.Settled

/-!
# The succession of revisions

A note names the one it replaces, and a chunk the chunk of that note. A link points to an
identifier drawn before that of the note (`Tables.Succession.order`), so there are no
cycles; it is made while the note it names is active and that note is superseded in the
same request, so that no other note names it (`Tables.Succession.injective`). As long as
nothing was hard deleted a superseded note is named (`Tables.Named`).
-/

namespace DiaryMemory

namespace Tables

/-- The notes are of one external message in one community. -/
def SameMessage (T : Tables) (n m : Note) : Prop :=
  n.communityId = m.communityId ∧ ∃ chat msg, T.sourceIsFor chat msg n.sourceMessageId = true ∧
    T.sourceIsFor chat msg m.sourceMessageId = true

/-- Note `n` names `m`. -/
def Supersedes (T : Tables) (n m : Note) : Prop :=
  n ∈ T.notes ∧ m ∈ T.notes ∧ n.supersedesNoteId = some m.noteId

/-- What holds of the links between revisions; `uuid` are the identifiers drawn, `draws` how
many. -/
structure Succession (uuid : Nat → String) (draws : Nat) (T : Tables) : Prop where
  order : ∀ n ∈ T.notes, ∀ id ∈ n.supersedesNoteId, ∃ i j, i < j ∧ id = uuid i ∧ n.noteId = uuid j
  injective : ∀ n ∈ T.notes, ∀ n' ∈ T.notes, ∀ id ∈ n.supersedesNoteId,
    n'.supersedesNoteId = some id → n = n'
  target : ∀ n m, T.Supersedes n m → m.lifecycleState = .superseded ∧ T.SameMessage n m
  chunkLink : ∀ c ∈ T.eventChunks, ∀ id ∈ c.supersedesChunkId, Drawn uuid draws id
  mirror : ∀ n ∈ T.notes, ∀ m ∈ T.notes, ∀ c ∈ T.eventChunks, ∀ d ∈ T.eventChunks,
    c.noteId = n.noteId → d.noteId = m.noteId →
      (c.supersedesChunkId = some d.chunkId ↔ n.supersedesNoteId = some m.noteId)

/-- Every superseded note is named by another. -/
def Named (T : Tables) : Prop :=
  ∀ m ∈ T.notes, m.lifecycleState = .superseded → ∃ n ∈ T.notes, n.supersedesNoteId = some m.noteId

theorem succession_empty {uuid : Nat → String} {draws : Nat} : ({} : Tables).Succession uuid draws where
  order _ h := absurd h Table.not_mem_empty
  injective _ h := absurd h Table.not_mem_empty
  target _ _ h := absurd h.1 Table.not_mem_empty
  chunkLink _ h := absurd h Table.not_mem_empty
  mirror _ h := absurd h Table.not_mem_empty

namespace Succession

variable {uuid : Nat → String} {draws draws' : Nat} {T T' : Tables}

theorem mono (h : T.Succession uuid draws) (hd : draws ≤ draws') : T.Succession uuid draws' :=
  { h with chunkLink := fun c hc id hid => (h.chunkLink c hc id hid).mono hd }

/-- A named note comes before the one that names it. -/
theorem order_trans (h : T.Succession uuid draws) (hinj : Function.Injective uuid) {n m : Note}
    (hnm : Relation.TransGen T.Supersedes n m) :
    ∃ i j, i < j ∧ m.noteId = uuid i ∧ n.noteId = uuid j := by
  induction hnm with
  | single hs => exact h.order _ hs.1 _ hs.2.2
  | tail _ hs ih =>
    obtain ⟨i, j, hij, hi, hj⟩ := ih
    obtain ⟨i', j', hij', hi', hj'⟩ := h.order _ hs.1 _ hs.2.2
    have he : i = j' := hinj (hi.symm.trans hj')
    exact ⟨i', j, by omega, hi', hj⟩

theorem acyclic (h : T.Succession uuid draws) (hinj : Function.Injective uuid) (n : Note) :
    ¬ Relation.TransGen T.Supersedes n n := by
  intro hn
  obtain ⟨i, j, hij, hi, hj⟩ := h.order_trans hinj hn
  have he : i = j := hinj (hi.symm.trans hj)
  omega

/-- Links are kept when rows only change their marks, or go. -/
theorem of_same (h : T.Succession uuid draws)
    (hnotes : ∀ n' ∈ T'.notes, ∃ n ∈ T.notes, n.Same n' ∧
      (n.lifecycleState = .superseded → n'.lifecycleState = .superseded))
    (hchunks : ∀ c' ∈ T'.eventChunks, ∃ c ∈ T.eventChunks, c.Same c')
    (hsources : ∀ n ∈ T'.notes, ∀ chat msg, T.sourceIsFor chat msg n.sourceMessageId = true →
      T'.sourceIsFor chat msg n.sourceMessageId = true) : T'.Succession uuid draws where
  order n' hn' := by
    obtain ⟨n, hn, he, -⟩ := hnotes n' hn'
    rw [he]
    exact h.order n hn
  injective n' hn' m' hm' id hid hid' := by
    obtain ⟨n, hn, he, -⟩ := hnotes n' hn'
    obtain ⟨m, hm, he', -⟩ := hnotes m' hm'
    have hnm : n = m := h.injective n hn m hm id (by rwa [he] at hid) (by rwa [he'] at hid')
    exact Table.eq_of_key hn' hm' (he.noteId.trans (hnm ▸ he'.noteId.symm))
  target n' m' hs := by
    obtain ⟨n, hn, he, -⟩ := hnotes n' hs.1
    obtain ⟨m, hm, he', hstate⟩ := hnotes m' hs.2.1
    have hlink := hs.2.2
    rw [he, he'] at hlink
    obtain ⟨hsuper, hcommunity, chat, msg, hfor, hfor'⟩ := h.target n m ⟨hn, hm, hlink⟩
    refine ⟨hstate hsuper, ?_, chat, msg, hsources n' hs.1 chat msg ?_,
      hsources m' hs.2.1 chat msg ?_⟩
    · rw [he, he']
      exact hcommunity
    · rwa [he.sourceMessageId]
    · rwa [he'.sourceMessageId]
  chunkLink c' hc' := by
    obtain ⟨c, hc, he⟩ := hchunks c' hc'
    rw [he]
    exact h.chunkLink c hc
  mirror n' hn' m' hm' c' hc' d' hd' hcn hdm := by
    obtain ⟨n, hn, hen, -⟩ := hnotes n' hn'
    obtain ⟨m, hm, hem, -⟩ := hnotes m' hm'
    obtain ⟨c, hc, hec⟩ := hchunks c' hc'
    obtain ⟨d, hd, hed⟩ := hchunks d' hd'
    rw [hec, hen] at hcn
    rw [hed, hem] at hdm
    rw [hec, hen, hed, hem]
    exact h.mirror n hn m hm c hc d hd hcn hdm

theorem putSource (h : T.Succession uuid draws) (hT : T.Linked) {s : SourceMessage}
    (hs : ∀ x ∈ T.sourceMessages, x.sourceMessageId ≠ s.sourceMessageId) :
    (T.putSource s).Succession uuid draws :=
  h.of_same (fun n hn => ⟨n, hn, .refl n, id⟩) (fun c hc => ⟨c, hc, .refl c⟩)
    fun n hn chat msg hfor => by
      obtain ⟨x, hx, ho⟩ := hT.note_source n hn
      rwa [sourceIsFor_putSource (ho.source ▸ hs x hx)]

theorem restatused (h : T.Succession uuid draws) (hr : T.Restatused T') :
    T'.Succession uuid draws := by
  refine h.of_same (fun n hn => ⟨n, hr.notes ▸ hn, .refl n, id⟩) (fun c' hc' => ?_)
    fun n hn chat msg hfor => ?_
  · obtain ⟨c, hc, he⟩ := hr.mem hc'
    refine ⟨c, hc, ?_⟩
    rw [he]
    exact .withStatus c _
  · rwa [sourceIsFor, hr.sources]

theorem removeSource (h : T.Succession uuid draws) (id : String) :
    (T.removeSource id).Succession uuid draws := by
  refine h.of_same (fun n hn => ⟨n, (Table.mem_discard.mp hn).1, .refl n, fun h => h⟩)
    (fun c hc => ⟨c, (Table.mem_discard.mp hc).1, .refl c⟩) fun n hn chat msg hfor => ?_
  obtain ⟨s, hs, hid, hrest⟩ := sourceIsFor_iff.mp hfor
  have hne : n.sourceMessageId ≠ id := of_decide_eq_false (Table.mem_discard.mp hn).2
  exact sourceIsFor_iff.mpr ⟨s, Table.mem_discard.mpr ⟨hs, decide_eq_false (hid ▸ hne)⟩, hid, hrest⟩

/-- An active note can be flipped : it is named by none. -/
theorem flip (h : T.Succession uuid draws) {state : LifecycleState} {note : Option Note}
    {chunk : Option EventChunk}
    (hnote : ∀ p ∈ note, p ∈ T.notes ∧ p.lifecycleState = .active) :
    (T.flip state note chunk).Succession uuid draws := by
  refine h.of_same (fun n' hn' => ?_) (fun c' hc' => ?_) fun n hn chat msg hfor => ?_
  · obtain ⟨n, hn, rfl⟩ := mem_flip_notes.mp hn'
    refine ⟨n, hn, ?_⟩
    split
    · next he =>
      obtain ⟨p, hp, hid⟩ := Option.map_eq_some_iff.mp he
      obtain ⟨hpm, hpa⟩ := hnote p hp
      rw [Table.eq_of_key hpm hn hid] at hpa
      exact ⟨.withState n state, fun hs => absurd (hpa.symm.trans hs) nofun⟩
    · exact ⟨.refl n, fun h => h⟩
  · obtain ⟨c, hc, rfl⟩ := mem_flip_chunks.mp hc'
    refine ⟨c, hc, ?_⟩
    split
    · exact .withState c state
    · exact .refl c
  · rwa [sourceIsFor, flip_sourceMessages]

end Succession

end Tables

section Saved

variable {uuid : Nat → String} {draws : Nat} {T : Tables} {message : InboundMessage}
  {source : String} {now : DateTime} {parsed : ParsedNote} {noteId chunkId : String} {v : Revision}

/-- What a revision replaces, and what its rows name. -/
structure Revision.Replaces (v : Revision) (T : Tables) (message : InboundMessage)
    (source noteId : String) : Prop where
  ofNote : v.note.noteId = noteId
  ofSource : v.note.sourceMessageId = source
  inCommunity : v.note.communityId = message.communityId
  link : v.note.supersedesNoteId = v.priorNote.map Note.noteId
  prior : ∀ p ∈ v.priorNote, p ∈ T.activeNotesFor message.externalChatId
    message.externalMessageId message.communityId
  chunk : ∀ c ∈ v.chunks, c.noteId = noteId ∧
    c.supersedesChunkId = v.priorChunk.map EventChunk.chunkId
  priorChunk : ∀ d ∈ v.priorChunk, d ∈ T.eventChunks

theorem Revision.replaces (hv : v = revision T message source now parsed noteId chunkId) :
    v.Replaces T message source noteId where
  ofNote := by rw [hv]; rfl
  ofSource := by rw [hv]; rfl
  inCommunity := by rw [hv]; rfl
  link := by rw [hv]; rfl
  prior p hp := by
    rw [hv] at hp
    exact Tables.mem_of_getActiveNote hp
  chunk c hc := by
    obtain ⟨-, rfl⟩ := (mem_chunks hv).mp hc
    rw [hv]
    exact ⟨rfl, rfl⟩
  priorChunk d hd := by
    rw [hv] at hd
    obtain ⟨n, -, hget⟩ := Option.bind_eq_some_iff.mp hd
    exact (Tables.mem_activeChunksFor.mp (Tables.mem_of_getActiveChunk hget)).1

/-- A note after a revision is the new one, or an old one as it was, or the replaced one. -/
theorem Revision.note_cases (hv : v = revision T message source now parsed noteId chunkId)
    (hu : T.Unused noteId chunkId) {x : Note} (hx : x ∈ (v.save T).notes) :
    x = v.note ∨ ∃ n ∈ T.notes, n.Same x ∧
      (x = n ∨ n ∈ v.priorNote ∧ x.lifecycleState = .superseded) := by
  rcases (mem_save_notes hv hu).mp hx with rfl | ⟨n, hn, rfl⟩
  · exact .inl rfl
  · refine .inr ⟨n, hn, ?_⟩
    split
    · next he =>
      obtain ⟨p, hp, hid⟩ := Option.map_eq_some_iff.mp he
      have hpn : p = n := Table.eq_of_key (Tables.mem_activeNotesFor.mp ((replaces hv).prior p hp)).1
        hn hid
      exact ⟨.withState n _, .inr ⟨hpn ▸ hp, rfl⟩⟩
    · exact ⟨.refl n, .inl rfl⟩

theorem Revision.chunk_cases (hv : v = revision T message source now parsed noteId chunkId)
    (hu : T.Unused noteId chunkId) {x : EventChunk} (hx : x ∈ (v.save T).eventChunks) :
    x ∈ v.chunks ∨ ∃ c ∈ T.eventChunks, c.Same x := by
  refine ((mem_save_chunks hv hu).mp hx).imp_right ?_
  rintro ⟨c, hc, rfl⟩
  refine ⟨c, hc, ?_⟩
  split
  · exact .withState c _
  · exact .refl c

/-- A new revision keeps the links : the note it names is active until then. -/
theorem Tables.Succession.save (h : T.Succession uuid draws) (hinj : Function.Injective uuid)
    (hT : T.Linked) (hsettled : T.Settled) (hnotes : ∀ x ∈ T.notes, Drawn uuid draws x.noteId)
    (hchunks : ∀ x ∈ T.eventChunks, Drawn uuid draws x.chunkId)
    (hv : v = revision T message source now parsed noteId chunkId)
    (hids : Undrawn uuid draws noteId ∧ Undrawn uuid draws chunkId)
    (hsource : T.sourceIsFor message.externalChatId message.externalMessageId source = true) :
    (v.save T).Succession uuid draws := by
  have hu : T.Unused noteId chunkId :=
    ⟨fun x hx => hids.1.ne hinj (hnotes x hx), fun x hx => hids.2.ne hinj (hchunks x hx)⟩
  have hr := Revision.replaces hv
  have hprior : ∀ p ∈ v.priorNote, p ∈ T.notes ∧ p.lifecycleState = .active ∧
      p.communityId = message.communityId ∧ T.sourceIsFor message.externalChatId
        message.externalMessageId p.sourceMessageId = true := by
    intro p hp
    obtain ⟨hpm, hpc, hpa, hpf⟩ := Tables.mem_activeNotesFor.mp (hr.prior p hp)
    exact ⟨hpm, hpa, hpc, hpf⟩
  -- no old note names the new one, nor the one it replaces
  have hold_new : ∀ n ∈ T.notes, n.supersedesNoteId ≠ some noteId := by
    intro n hn he
    obtain ⟨i, j, hij, hi, hj⟩ := h.order n hn noteId he
    obtain ⟨k, hk, hidk⟩ := hids.1
    obtain ⟨j', hj', hjj⟩ := hnotes n hn
    have h1 : i = k := hinj (hi.symm.trans hidk)
    have h2 : j = j' := hinj (hj.symm.trans hjj.symm)
    omega
  have hold_prior : ∀ n ∈ T.notes, ∀ p ∈ v.priorNote, n.supersedesNoteId ≠ some p.noteId := by
    intro n hn p hp he
    obtain ⟨hpm, hpa, -⟩ := hprior p hp
    have hsuper := (h.target n p ⟨hn, hpm, he⟩).1
    rw [hpa] at hsuper
    cases hsuper
  have hnew : ∀ id ∈ v.note.supersedesNoteId, ∃ p ∈ v.priorNote, p.noteId = id := by
    intro id hid
    rw [hr.link] at hid
    obtain ⟨p, hp, hpid⟩ := Option.map_eq_some_iff.mp hid
    exact ⟨p, hp, hpid⟩
  have hne : ∀ n ∈ T.notes, n.noteId ≠ noteId := hu.1
  refine ⟨fun x hx id hid => ?_, fun x hx y hy id hid hid' => ?_, fun x y hs => ?_,
    fun c hc id hid => ?_, fun x hx y hy c hc d hd hcx hdy => ?_⟩
  · rcases Revision.note_cases hv hu hx with rfl | ⟨n, hn, he, -⟩
    · obtain ⟨p, hp, rfl⟩ := hnew id hid
      obtain ⟨i, hi, hpi⟩ := hnotes p (hprior p hp).1
      obtain ⟨k, hk, hidk⟩ := hids.1
      exact ⟨i, k, by omega, hpi.symm, hr.ofNote.trans hidk⟩
    · rw [he] at hid ⊢
      exact h.order n hn id hid
  · rcases Revision.note_cases hv hu hx with rfl | ⟨n, hn, he, -⟩ <;>
      rcases Revision.note_cases hv hu hy with rfl | ⟨m, hm, he', -⟩
    · rfl
    · obtain ⟨p, hp, rfl⟩ := hnew id hid
      rw [he'] at hid'
      exact absurd hid' (hold_prior m hm p hp)
    · obtain ⟨p, hp, rfl⟩ := hnew id hid'
      rw [he] at hid
      exact absurd hid (hold_prior n hn p hp)
    · have hnm : n = m := h.injective n hn m hm id (by rwa [he] at hid) (by rwa [he'] at hid')
      exact Table.eq_of_key hx hy (he.noteId.trans (hnm ▸ he'.noteId.symm))
  · obtain ⟨hx, hy, hlink⟩ := hs
    have hfor : ∀ {chat msg id : String}, T.sourceIsFor chat msg id = true →
        (v.save T).sourceIsFor chat msg id = true := by
      intro chat msg id hf
      rwa [Tables.sourceIsFor, Revision.save_sourceMessages]
    rcases Revision.note_cases hv hu hx with rfl | ⟨n, hn, he, -⟩ <;>
      rcases Revision.note_cases hv hu hy with rfl | ⟨m, hm, he', hcase⟩
    · obtain ⟨p, hp, hpid⟩ := hnew _ hlink
      exact absurd (hpid.trans hr.ofNote) (hne p (hprior p hp).1)
    · obtain ⟨p, hp, hpid⟩ := hnew _ hlink
      obtain ⟨hpm, hpa, hpc, hpf⟩ := hprior p hp
      have hpm' : p = m := Table.eq_of_key hpm hm (hpid.trans he'.noteId)
      refine ⟨?_, ?_, _, _, hfor (hr.ofSource.symm ▸ hsource), hfor ?_⟩
      · rcases hcase with rfl | ⟨-, hstate⟩
        · -- the replaced note does not stay as it was
          have hflip := (Revision.mem_save_notes hv hu).mp hy
          rcases hflip with hcontra | ⟨q, hq, hqy⟩
          · exact absurd (hcontra ▸ hr.ofNote) (hne y hm)
          · have hqid : q.noteId = y.noteId := by
              rw [hqy]
              split <;> rfl
            rw [hqy, if_pos]
            · rfl
            · rw [Option.mem_def.mp hp, hqid]
              exact congrArg some hpid
        · exact hstate
      · rw [he', ← hpm']
        exact hr.inCommunity.trans hpc.symm
      · rw [he'.sourceMessageId, ← hpm']
        exact hpf
    · rw [he, hr.ofNote] at hlink
      exact absurd hlink (hold_new n hn)
    · rw [he, he'] at hlink
      obtain ⟨hsuper, hcommunity, chat, msg, hf, hf'⟩ := h.target n m ⟨hn, hm, hlink⟩
      refine ⟨?_, ?_, chat, msg, hfor (he.sourceMessageId ▸ hf), hfor (he'.sourceMessageId ▸ hf')⟩
      · rcases hcase with rfl | ⟨-, hstate⟩
        · exact hsuper
        · exact hstate
      · rw [he, he']
        exact hcommunity
  · rcases Revision.chunk_cases hv hu hc with hc | ⟨d, hd, he⟩
    · rw [(hr.chunk c hc).2] at hid
      obtain ⟨d, hd, rfl⟩ := Option.map_eq_some_iff.mp hid
      exact hchunks d (hr.priorChunk d hd)
    · rw [he] at hid
      exact h.chunkLink d hd id hid
  · have hofNew : ∀ {z : Note} {e : EventChunk}, z ∈ (v.save T).notes → e ∈ v.chunks →
        e.noteId = z.noteId → z = v.note := by
      intro z e hz he hez
      rcases Revision.note_cases hv hu hz with rfl | ⟨n, hn, hsame, -⟩
      · rfl
      · exact absurd (hsame.noteId.symm.trans (hez.symm.trans (hr.chunk e he).1)) (hne n hn)
    have hofOld : ∀ {z : Note} {e e₀ : EventChunk}, z ∈ (v.save T).notes → e₀ ∈ T.eventChunks →
        e₀.Same e → e.noteId = z.noteId → ∃ n ∈ T.notes, n.Same z := by
      intro z e e₀ hz he₀ hsame hez
      rcases Revision.note_cases hv hu hz with rfl | ⟨n, hn, hn', -⟩
      · obtain ⟨n, hn, ho⟩ := hT.chunk_note e₀ he₀
        exact absurd (ho.note.trans (hsame.noteId.symm.trans (hez.trans hr.ofNote))) (hne n hn)
      · exact ⟨n, hn, hn'⟩
    rcases Revision.chunk_cases hv hu hc with hc' | ⟨c₀, hc₀, hec⟩ <;>
      rcases Revision.chunk_cases hv hu hd with hd' | ⟨d₀, hd₀, hed⟩
    · rw [hofNew hx hc' hcx, hofNew hy hd' hdy, hr.link, (hr.chunk c hc').2]
      obtain ⟨-, rfl⟩ := (Revision.mem_chunks hv).mp hd'
      constructor
      · intro he
        obtain ⟨e, he, hid⟩ := Option.map_eq_some_iff.mp he
        exact absurd hid (hu.2 e (hr.priorChunk e he))
      · intro he
        obtain ⟨p, hp, hid⟩ := Option.map_eq_some_iff.mp he
        exact absurd (hid.trans hr.ofNote) (hne p (hprior p hp).1)
    · rw [hofNew hx hc' hcx, hr.link, (hr.chunk c hc').2, hed.chunkId, ← hdy, hed.noteId]
      exact hsettled.flips_together hT (by rw [hv]; rfl) (by rw [hv]; rfl) hd₀
    · obtain ⟨n, hn, hnx⟩ := hofOld hx hc₀ hec hcx
      rw [hofNew hy hd' hdy, hnx, hec, hr.ofNote]
      obtain ⟨-, rfl⟩ := (Revision.mem_chunks hv).mp hd'
      constructor
      · intro he
        exact absurd rfl (hids.2.ne hinj (h.chunkLink c₀ hc₀ _ he))
      · exact fun he => absurd he (hold_new n hn)
    · obtain ⟨n, hn, hnx⟩ := hofOld hx hc₀ hec hcx
      obtain ⟨m, hm, hmy⟩ := hofOld hy hd₀ hed hdy
      rw [hec, hnx] at hcx
      rw [hed, hmy] at hdy
      rw [hec, hnx, hed, hmy]
      exact h.mirror n hn m hm c₀ hc₀ d₀ hd₀ hcx hdy

theorem Tables.Named.save (h : T.Named)
    (hv : v = revision T message source now parsed noteId chunkId) (hu : T.Unused noteId chunkId) :
    (v.save T).Named := by
  intro x hx hsuper
  have hr := Revision.replaces hv
  rcases (Revision.mem_save_notes hv hu).mp hx with rfl | ⟨m, hm, rfl⟩
  · rw [hv] at hsuper
    cases hsuper
  · split at hsuper
    · next he =>
      refine ⟨v.note, (Revision.mem_save_notes hv hu).mpr (.inl rfl), ?_⟩
      rw [if_pos he, hr.link, he]
      rfl
    · next he =>
      obtain ⟨n, hn, hlink⟩ := h m hm hsuper
      refine ⟨_, (Revision.mem_save_notes hv hu).mpr (.inr ⟨n, hn, rfl⟩), ?_⟩
      rw [if_neg he, ← hlink]
      split <;> rfl

end Saved

theorem Tables.Named.flip {T : Tables} (h : T.Named) {note : Option Note} {chunk : Option EventChunk} :
    (T.flip .tombstoned note chunk).Named := by
  intro x hx hsuper
  obtain ⟨m, hm, rfl⟩ := mem_flip_notes.mp hx
  split at hsuper
  · cases hsuper
  · next he =>
    obtain ⟨n, hn, hlink⟩ := h m hm hsuper
    refine ⟨_, mem_flip_notes.mpr ⟨n, hn, rfl⟩, ?_⟩
    rw [if_neg he, ← hlink]
    split <;> rfl

theorem Tables.Named.of_notes {T T' : Tables} (h : T.Named) (hn : T'.notes = T.notes) : T'.Named := by
  unfold Named at *
  rwa [hn]

/-! ## Requests without failures -/

section Reliable

variable {kind : StoreKind} {engine : SearchEngine} {env : Env}
  {w w' : World (kind.backend engine).State}

/-- What is kept by the requests of a run : settled rows, the links between revisions, and
as long as nothing was removed a namer for every superseded note. -/
structure Successive (env : Env) (w : World (kind.backend engine).State) : Prop where
  settled : w.rows.Settled
  succession : w.rows.Succession env.uuid w.draws
  named : w.removalsSince 0 = [] → w.rows.Named

theorem World.removalsSince_append {S : Type} {w w' : World S} {es : List Event}
    (hlog : w'.log = w.log ++ es) :
    w'.removalsSince 0 = w.removalsSince 0 ++ es.filterMap Event.removal := by
  rw [removalsSince, List.drop_zero, hlog, List.filterMap_append, removalsSince, List.drop_zero]

theorem Continues.noRemovals {P : Call → Tables → Prop} (h : Continues P w w')
    (hnone : w'.removalsSince 0 = []) : w.removalsSince 0 = [] := by
  obtain ⟨es, hlog, -⟩ := h
  rw [World.removalsSince_append hlog, List.append_eq_nil_iff] at hnone
  exact hnone.1

/-- A hard delete that succeeded is recorded. -/
theorem removals_hardDelete {id community : String} {v : HardDeleteOutcome}
    (h : ((DomainService.hardDeleteSourceMessage id community).exec (kind.backend engine) env w).1 =
      .ok v) :
    ((DomainService.hardDeleteSourceMessage id community).exec (kind.backend engine) env
      w).2.removalsSince 0 ≠ [] := by
  have hexec : (DomainService.hardDeleteSourceMessage id community).exec (kind.backend engine) env w =
      serve (kind.backend engine) env (.repo (.hardDeleteSourceMessage id community)) w := rfl
  rw [hexec] at h ⊢
  rw [World.removalsSince_append (log_serve _ w), h]
  simp [Event.removal, raised, isRaise]

theorem successive_initial : Successive env (World.initial kind engine) := by
  refine ⟨?_, ?_, fun _ => ?_⟩
  · cases kind <;> exact Tables.settled_empty
  · cases kind <;> exact Tables.succession_empty
  · cases kind <;> exact fun _ h => absurd h Table.not_mem_empty

theorem Tables.active_of_lookup {T : Tables} {chat msg community : String} :
    ∀ p ∈ T.getActiveNoteForExternalMessage chat msg community,
      p ∈ T.notes ∧ p.lifecycleState = .active := fun _ hp => by
  obtain ⟨hpm, -, hpa, -⟩ := mem_activeNotesFor.mp (mem_of_getActiveNote hp)
  exact ⟨hpm, hpa⟩

/-- An ingest keeps the links. -/
theorem IngestOutcome.successive {service : DomainService} {message : InboundMessage}
    {r : Except Exn IngestResult} (henv : env.Reliable) (hs : Sound env w) (h : Successive env w)
    (hout : IngestOutcome env service message w r w') :
    w'.rows.Succession env.uuid w.draws ∧ (w.rows.Named → w'.rows.Named) := by
  rcases hout.added with hrows | ⟨source, now, w₁, hunused, hnone, hdraws, hrows, hfresh⟩
  · rw [hrows]
    exact ⟨h.succession, fun hn => hn⟩
  have hT := hs.linked.putSource (s := DomainService.sourceRow message source now) hunused
    (Tables.sourceForKey_eq_none.mp hnone)
  have hsettled := h.settled.putSource hs.linked (s := DomainService.sourceRow message source now)
    hunused
  have hsucc := h.succession.putSource hs.linked (s := DomainService.sourceRow message source now)
    hunused
  have hnamed : w.rows.Named → w₁.rows.Named := fun hn => hn.of_notes (by rw [hrows]; rfl)
  have hfor : w₁.rows.sourceIsFor message.externalChatId message.externalMessageId source = true := by
    rw [hrows]
    exact Tables.sourceIsFor_iff.mpr ⟨_, Table.mem_put_self, rfl, rfl, rfl⟩
  have hnotes : ∀ x ∈ w₁.rows.notes, Drawn env.uuid w.draws x.noteId := by
    rw [hrows]
    exact hs.minted.note
  have hchunks : ∀ x ∈ w₁.rows.eventChunks, Drawn env.uuid w.draws x.chunkId := by
    rw [hrows]
    exact hs.minted.chunk
  rw [← hrows] at hT hsettled hsucc
  rcases hfresh.reliable henv with hsame | hflip | ⟨parsed, noteId, chunkId, hids, hu, hsave⟩
  · rw [hsame]
    exact ⟨hsucc, hnamed⟩
  · rw [hflip]
    exact ⟨hsucc.flip Tables.active_of_lookup, fun hn => (hnamed hn).flip⟩
  · refine ⟨(hsucc.save env.uuid_injective hT hsettled hnotes hchunks rfl
      ⟨hids.1.mono hdraws, hids.2.mono hdraws⟩ hfor).restatused hsave, fun hn => ?_⟩
    exact ((hnamed hn).save rfl hu).of_notes hsave.notes

theorem Operation.successive (henv : env.Reliable) (hs : Sound env w) (h : Successive env w)
    (o : Operation) (ho : o.OnContent) : Successive env (o.run (kind.backend engine) env w) := by
  have hsettled := o.settled henv hs h.settled ho
  have hkeep : ∀ {w' : World (kind.backend engine).State}, w'.rows.Settled → w.draws ≤ w'.draws →
      Continues (o.Promise env w.rows) w w' →
      w'.rows.Succession env.uuid w.draws ∧ (w.rows.Named → w'.rows.Named) →
      Successive env w' := fun hset hdraws hcont hs' =>
    ⟨hset, hs'.1.mono hdraws, fun hnone => hs'.2 (h.named (hcont.noRemovals hnone))⟩
  have hcont := (run_spec hs o).2
  have hdraws := draws_run (kind.backend engine) env w o
  cases o with
  | ingest service message =>
    exact hkeep hsettled hdraws hcont (ingest_outcome hs service message |>.successive henv hs h)
  | delete chat target community =>
    refine hkeep hsettled hdraws hcont ?_
    rcases (delete_outcome hs chat target community).removed henv with hsame | hflip
    · rw [run, hsame]
      exact ⟨h.succession, fun hn => hn⟩
    · rw [run, hflip]
      exact ⟨h.succession.flip Tables.active_of_lookup, fun hn => hn.flip⟩
  | retry service community limit =>
    have hr := Continues.restatused hcont
    exact hkeep hsettled hdraws hcont
      ⟨h.succession.restatused hr, fun hn => hn.of_notes hr.notes⟩
  | hardDelete id community =>
    have hout := hardDelete_outcome hs id community
    unfold HardDeleteEnd at hout
    split at hout
    · next hok =>
      refine ⟨hsettled, ?_, fun hnone => absurd hnone (removals_hardDelete hok)⟩
      rw [run, hout.rows]
      exact (h.succession.removeSource id).mono hdraws
    · refine hkeep hsettled hdraws hcont ?_
      rw [run, hout.rows]
      exact ⟨h.succession, fun hn => hn⟩
  | _ => exact absurd ho id

theorem successive_run (henv : env.Reliable) {ops : List Operation} (hops : ∀ o ∈ ops, o.OnContent) :
    Successive env (runAll (kind.backend engine) env (World.initial kind engine) ops) :=
  runAll_induction (sound_initial kind engine env) successive_initial fun o ho _ hv hI =>
    o.successive henv hv hI (hops o ho)

/-- The links between revisions : no cycles, no note named twice, only revisions of one
message, and chunks linked as their notes. -/
structure Tables.Chained (T : Tables) : Prop where
  acyclic : ∀ n, ¬ Relation.TransGen T.Supersedes n n
  injective : ∀ n ∈ T.notes, ∀ n' ∈ T.notes, ∀ id ∈ n.supersedesNoteId,
    n'.supersedesNoteId = some id → n = n'
  same_message : ∀ n m, T.Supersedes n m → T.SameMessage n m
  mirror : ∀ n ∈ T.notes, ∀ m ∈ T.notes, ∀ c ∈ T.eventChunks, ∀ d ∈ T.eventChunks,
    c.noteId = n.noteId → d.noteId = m.noteId →
      (c.supersedesChunkId = some d.chunkId ↔ n.supersedesNoteId = some m.noteId)

/-- Where no call of the store fails, in every run of ingests, deletes, retries and hard
deletes a lifecycle state changes at most once and away from active, everything else of a
note or chunk but an embedding status stays, the links between revisions are chained, and
as long as nothing was removed a note is superseded exactly when one note names it. -/
theorem lifecycle_run (kind : StoreKind) (engine : SearchEngine) (env : Env) (henv : env.Reliable)
    (ops : List Operation) (hops : ∀ o ∈ ops, o.OnContent) :
    let w := runAll (kind.backend engine) env (World.initial kind engine) ops
    (∀ i e, w.log[i]? = some e → Tables.Evolves (· ∈ w.removalsSince i) e.before w.rows) ∧
    w.rows.Chained ∧
    (w.removalsSince 0 = [] → ∀ m ∈ w.rows.notes, m.lifecycleState = .superseded ↔
      ∃! n, n ∈ w.rows.notes ∧ n.supersedesNoteId = some m.noteId) := by
  intro w
  have h : Successive env w := successive_run henv hops
  refine ⟨fun i e hi => evolves_run env ops hi, ⟨h.succession.acyclic env.uuid_injective,
    h.succession.injective, fun n m hs => (h.succession.target n m hs).2, h.succession.mirror⟩,
    fun hnone m hm => ⟨fun hsuper => ?_, ?_⟩⟩
  · obtain ⟨n, hn, hlink⟩ := h.named hnone m hm hsuper
    exact ⟨n, ⟨hn, hlink⟩, fun n' hn' => h.succession.injective n' hn'.1 n hn _ hn'.2 hlink⟩
  · rintro ⟨n, ⟨hn, hlink⟩, -⟩
    exact (h.succession.target n m ⟨hn, hm, hlink⟩).1

/-- A note that is edited, turned into a draft and hard deleted. -/
theorem lifecycle_run_edited :
    let w := runAll (StoreKind.mock.backend .plain) .steady (World.initial .mock .plain)
      [.ingest ⟨none⟩ (.plain .note "2026-05-09\nwalk" 0),
        .ingest ⟨none⟩ (.plain .note "2026-05-09\nrun" 1),
        .ingest ⟨none⟩ (.plain .draft "later" 2), .hardDelete "x" "community"]
    (∀ i e, w.log[i]? = some e → Tables.Evolves (· ∈ w.removalsSince i) e.before w.rows) ∧
    w.rows.Chained ∧
    (w.removalsSince 0 = [] → ∀ m ∈ w.rows.notes, m.lifecycleState = .superseded ↔
      ∃! n, n ∈ w.rows.notes ∧ n.supersedesNoteId = some m.noteId) :=
  lifecycle_run .mock .plain .steady Env.steady_reliable _ (by simp [Operation.OnContent])

end Reliable

end DiaryMemory
