import DiaryMemory.Arrival

/-!
# Deletes after half-done edits

An edit saves its revision before it flips the one it replaces, so one that fails in between
leaves two active notes of its message. A removal flips the most recent of them alone
(`delete_holdsNothing_iff`).
-/

namespace DiaryMemory

/-- A flip of one active note leaves none exactly when it was the only one. -/
theorem Tables.activeNotesFor_flip_eq_nil_iff {T : Tables} {chat msg community : String} {n : Note}
    {chunk : Option EventChunk} (hn : n ∈ T.activeNotesFor chat msg community) :
    (T.flip .tombstoned (some n) chunk).activeNotesFor chat msg community = [] ↔
      (T.activeNotesFor chat msg community).length = 1 := by
  have hstate : LifecycleState.tombstoned ≠ .active := nofun
  have hflip : ∀ m, m ∈ (T.flip .tombstoned (some n) chunk).activeNotesFor chat msg community ↔
      m ∈ T.activeNotesFor chat msg community ∧ n.noteId ≠ m.noteId := by
    intro m
    rw [mem_activeNotesFor_flip hstate]
    simp
  constructor
  · intro hnone
    have hnodup : (T.activeNotesFor chat msg community).Nodup := T.notes.rows_nodup.filter _
    have hall : ∀ m ∈ T.activeNotesFor chat msg community, m = n := by
      intro m hm
      by_contra hne
      have hid : n.noteId ≠ m.noteId := fun he =>
        hne (Table.eq_of_key (mem_activeNotesFor.mp hm).1 (mem_activeNotesFor.mp hn).1 he.symm)
      have hstill := (hflip m).mpr ⟨hm, hid⟩
      rw [hnone] at hstill
      cases hstill
    rw [eq_singleton_of_nodup hnodup hn hall]
    rfl
  · intro hone
    obtain ⟨a, ha⟩ := List.length_eq_one_iff.mp hone
    refine List.eq_nil_iff_forall_not_mem.mpr fun m hm => ?_
    obtain ⟨hold, hne⟩ := (hflip m).mp hm
    rw [ha, List.mem_singleton] at hold hn
    exact hne (by rw [hold, hn])

/-- In every run, whatever fails, a removal that reports the note deleted leaves neither an
active note nor an active chunk of the message, and none of its chunks for retrieval, exactly
when the message had one active note. -/
theorem delete_holdsNothing_iff (kind : StoreKind) (engine : SearchEngine) (env : Env)
    (ops : List Operation) (chat target community : String) (outcome : DeleteOutcome) :
    let w := runAll (kind.backend engine) env (World.initial kind engine) ops
    let r := (DomainService.deleteNoteForExternalMessage chat target community).exec
      (kind.backend engine) env w
    r.1 = .ok outcome → outcome.deleted = true →
      (r.2.rows.HoldsNothing chat target community ∧
        (∀ scope : SearchScope, scope.community = community → ∀ c, r.2.rows.InScope scope c →
          r.2.rows.sourceIsFor chat target c.sourceMessageId = false) ↔
      (w.rows.activeNotesFor chat target community).length = 1) := by
  intro w r hok hdeleted
  have hs : Sound env w := sound_run env ops
  obtain ⟨n, hfind, hrows⟩ := delete_rows hs hok hdeleted
  have hlinked : r.2.rows.Linked :=
    (Operation.run_spec hs (.delete chat target community)).1.linked
  have hiff : r.2.rows.HoldsNothing chat target community ↔
      (w.rows.activeNotesFor chat target community).length = 1 := by
    rw [hlinked.holdsNothing_iff, hrows]
    exact Tables.activeNotesFor_flip_eq_nil_iff (Tables.mem_of_getActiveNote hfind)
  rw [← hiff]
  refine and_iff_left_of_imp fun hnothing scope hscope c hc => ?_
  rw [Bool.eq_false_iff]
  intro hfor
  obtain ⟨hmem, hin⟩ := hc
  simp only [chunkInScope, Bool.and_eq_true, decide_eq_true_eq] at hin
  have hactive := Tables.mem_activeChunksOf.mpr
    ⟨hmem, hin.1.1.2, hin.1.1.1.trans hscope, hfor⟩
  rw [hnothing.chunks] at hactive
  cases hactive

theorem delete_holdsNothing :
    let w := runAll (StoreKind.mock.backend .plain) .steady (World.initial .mock .plain)
      [.ingest ⟨none⟩ (.plain .note "2026-05-09\nwalk" 0),
        .ingest ⟨none⟩ (.plain .note "2026-05-09\nrun" 1)]
    let r := (DomainService.deleteNoteForExternalMessage "chat" "message" "community").exec
      (StoreKind.mock.backend .plain) .steady w
    r.2.rows.HoldsNothing "chat" "message" "community" ∧
      ∀ scope : SearchScope, scope.community = "community" → ∀ c, r.2.rows.InScope scope c →
        r.2.rows.sourceIsFor "chat" "message" c.sourceMessageId = false := by
  intro w r
  have hdeleted : r.1.toOption = some { deleted := true, noteDate := some ⟨2026, 5, 9, by decide⟩ } := by
    decide +kernel
  have hone : (w.rows.activeNotesFor "chat" "message" "community").length = 1 := by decide +kernel
  exact (delete_holdsNothing_iff .mock .plain .steady _ "chat" "message" "community" _
    (ok_of_toOption hdeleted) rfl).mpr hone

/-- The edit stops before it flips the note it replaces, and the removal leaves that one. -/
theorem delete_leaves_replaced :
    let env : Env := { Env.steady with
      storeFails := fun _ c =>
        if c matches .markChunk .superseded .. then some (.other "OperationalError") else none }
    let w := runAll (StoreKind.mock.backend .plain) env (World.initial .mock .plain)
      [.ingest ⟨none⟩ (.plain .note "2026-05-09\nwalk" 0),
        .ingest ⟨none⟩ (.plain .note "2026-05-09\nrun" 1)]
    let r := (DomainService.deleteNoteForExternalMessage "chat" "message" "community").exec
      (StoreKind.mock.backend .plain) env w
    (∃ outcome, r.1 = .ok outcome ∧ outcome.deleted = true) ∧
      ¬ r.2.rows.HoldsNothing "chat" "message" "community" ∧
      (r.2.rows.activeChunksOf "chat" "message" "community").map EventChunk.chunkText = ["walk"] := by
  intro env w r
  have hdeleted : r.1.toOption = some { deleted := true, noteDate := some ⟨2026, 5, 9, by decide⟩ } := by
    decide +kernel
  have hactive : (r.2.rows.activeChunksOf "chat" "message" "community").map EventChunk.chunkText =
      ["walk"] := by decide +kernel
  refine ⟨⟨_, ok_of_toOption hdeleted, rfl⟩, fun hnothing => ?_, hactive⟩
  rw [hnothing.chunks] at hactive
  cases hactive

end DiaryMemory
