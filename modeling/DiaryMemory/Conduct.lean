import DiaryMemory.Interleaving
import Mathlib.Algebra.Order.Group.Nat

/-!
# Conduct of programs

A `Conduct` says which calls a program may make and at which stage each of them stands. A
program stays `Within lo hi` when, whatever the replies, all its calls are allowed, and those
with a stage come in strictly increasing stages above `lo` and up to `hi`. So it makes at most
one call of a stage (`pairwise_trace`).

A program makes its own calls only, so what every allowed call keeps holds under every schedule
of programs that stay within their conduct (`Pool.run_of_within`).
-/

namespace DiaryMemory

/-- The calls a program may make, and their stages. -/
structure Conduct (E : Type) where
  allows : E → Prop
  stage : E → Option ℕ

/-- The calls of a run, in their order. -/
def Prog.trace {E : Type} {R : E → Type} {S α : Type} (h : (e : E) → S → R e × S) :
    Prog E R α → S → List E
  | .ret _, _ => []
  | .call e k, s => e :: (k (h e s).1).trace h (h e s).2

namespace Conduct

variable {E : Type} {R : E → Type} {α β X S : Type} (C : Conduct E)

/-- The stage reached so far, seen as a contract. -/
def contract : Contract E R ℕ where
  pre e n := C.allows e ∧ ∀ k ∈ C.stage e, n < k
  post e n _ n' := n' = (C.stage e).getD n

/-- The calls are allowed, and their stages increase from above `lo` up to `hi`. -/
structure Within (lo hi : ℕ) (p : ExceptT X (Prog E R) α) : Prop where
  keeps : wp C.contract p (fun _ n => n ≤ hi) lo

/-- The same calls without stages. -/
def unstaged : Conduct E where
  allows := C.allows
  stage _ := none

variable {C} {lo lo' mid hi hi' : ℕ} {p : ExceptT X (Prog E R) α}

/-! ## Rules -/

/-- From an earlier stage a program ends at a stage that is not later. -/
theorem wp_of_le {α : Type} {hi : ℕ} : ∀ (q : Prog E R α) {lo lo' : ℕ}, lo' ≤ lo →
    q.wp C.contract (fun _ n => n ≤ hi) lo → q.wp C.contract (fun _ n => n ≤ hi) lo'
  | .ret _, _, _, hle, h => hle.trans h
  | .call e k, lo, lo', hle, h => by
    refine ⟨⟨h.1.1, fun n hn => hle.trans_lt (h.1.2 n hn)⟩, ?_⟩
    rintro r _ rfl
    refine wp_of_le (k r) ?_ (h.2 r _ rfl)
    cases C.stage e with
    | none => exact hle
    | some n => exact le_rfl

theorem Within.mono (h : C.Within lo hi p) (hlo : lo' ≤ lo) (hhi : hi ≤ hi') : C.Within lo' hi' p :=
  ⟨wp_imp (fun _ _ hn => hn.trans hhi) (wp_of_le p.run hlo h.keeps)⟩

theorem within_pure (a : α) (h : lo ≤ hi) : C.Within lo hi (pure a : ExceptT X (Prog E R) α) := ⟨h⟩

theorem within_throw (x : X) (h : lo ≤ hi) : C.Within lo hi (throw x : ExceptT X (Prog E R) α) :=
  ⟨h⟩

/-- One part after the other; `mid` is the stage between them. -/
theorem within_bind (mid : ℕ) {f : α → ExceptT X (Prog E R) β} (hp : C.Within lo mid p)
    (hmid : mid ≤ hi) (hf : ∀ a, C.Within mid hi (f a)) : C.Within lo hi (p >>= f) := by
  refine ⟨(wp_bind p f _ lo).mpr (wp_imp (fun r n hn => ?_) hp.keeps)⟩
  cases r with
  | error x => exact hn.trans hmid
  | ok a => exact wp_of_le (f a).run hn (hf a).keeps

theorem within_capture (h : C.Within lo hi p) : C.Within lo hi (capture p) :=
  ⟨(wp_capture p _ lo).mpr h.keeps⟩

theorem within_attempt {q : Prog E R (Except X α)}
    (h : q.wp C.contract (fun _ n => n ≤ hi) lo) : C.Within lo hi (attempt q) :=
  ⟨h⟩

theorem within_ask {q : Prog E R α} (h : q.wp C.contract (fun _ n => n ≤ hi) lo) :
    C.Within lo hi (ask q : ExceptT X (Prog E R) α) :=
  ⟨(wp_ask q _ lo).mpr h⟩

/-- One call. -/
theorem wp_perform_iff {e : E} : (Prog.perform (R := R) e).wp C.contract (fun _ n => n ≤ hi) lo ↔
    (C.allows e ∧ ∀ k ∈ C.stage e, lo < k) ∧ (R e → (C.stage e).getD lo ≤ hi) := by
  refine and_congr_right fun _ => ⟨fun h r => h r _ rfl, ?_⟩
  rintro h r _ rfl
  exact h r

/-! ## Runs -/

/-- The calls of a run are allowed. -/
theorem allows_trace {h : (e : E) → S → R e × S} {Q : α → ℕ → Prop} :
    ∀ (q : Prog E R α) {n : ℕ} {s : S}, q.wp C.contract Q n → ∀ e ∈ q.trace h s, C.allows e
  | .ret _, _, _, _, _, he => absurd he List.not_mem_nil
  | .call e k, n, s, hw, e', he => by
    rcases List.mem_cons.mp he with rfl | he
    · exact hw.1.1
    · exact allows_trace (k (h e s).1) (hw.2 _ _ rfl) e' he

/-- The stages of the calls of a run increase. -/
theorem pairwise_trace {h : (e : E) → S → R e × S} {Q : α → ℕ → Prop} :
    ∀ (q : Prog E R α) {n : ℕ} {s : S}, q.wp C.contract Q n →
      (n :: (q.trace h s).filterMap C.stage).Pairwise (· < ·)
  | .ret _, n, _, _ => List.pairwise_singleton _ n
  | .call e k, n, s, hw => by
    have hrest := pairwise_trace (h := h) (s := (h e s).2) (k (h e s).1) (hw.2 _ _ rfl)
    rw [Prog.trace, List.filterMap_cons]
    cases hs : C.stage e with
    | none => simpa [hs] using hrest
    | some m =>
      rw [hs] at hrest
      have hm := hw.1.2 m hs
      refine List.pairwise_cons.mpr ⟨fun j hj => ?_, hrest⟩
      rcases List.mem_cons.mp hj with rfl | hj
      · exact hm
      · exact hm.trans ((List.pairwise_cons.mp hrest).1 j hj)

theorem wp_unstaged {Q : α → ℕ → Prop} {Q' : α → ℕ → Prop} : ∀ (q : Prog E R α) {n m : ℕ},
    (∀ a, Q' a m) → q.wp C.contract Q n → q.wp C.unstaged.contract Q' m
  | .ret a, _, _, hQ, _ => hQ a
  | .call e k, _, m, hQ, hw => by
    refine ⟨⟨hw.1.1, fun k hk => absurd hk (Option.not_mem_none k)⟩, ?_⟩
    rintro r _ rfl
    exact wp_unstaged (k r) hQ (hw.2 r _ rfl)

theorem Within.unstaged (h : C.Within lo hi p) : C.unstaged.Within 0 0 p :=
  ⟨wp_unstaged p.run (fun _ => le_rfl) h.keeps⟩

end Conduct

namespace Pool

variable {ι E : Type} {R : E → Type} {α S : Type} [DecidableEq ι] {C : Conduct E}
  {h : (e : E) → S → R e × S} {I : S → Prop}

/-- What every allowed call keeps holds under every schedule, and the programs stay within their
conduct. -/
theorem run_of_within (hstep : ∀ e s, C.allows e → I s → I (h e s).2) (schedule : List ι)
    {p : Pool ι E R α S} {hi : ℕ} {g : ι → ℕ}
    (hp : ∀ i, (p.progs i).wp C.contract (fun _ n => n ≤ hi) (g i)) (hI : I p.state) :
    ∃ g' : ι → ℕ, (∀ i, ((p.run h schedule).progs i).wp C.contract (fun _ n => n ≤ hi) (g' i)) ∧
      I (p.run h schedule).state := by
  have hcall : ∀ (p : Pool ι E R α S) (g : ι → ℕ) i e k, p.progs i = .call e k → I p.state →
      (C.contract (R := R)).pre e (g i) → ∃ n, C.contract.post e (g i) (h e p.state).1 n ∧
        I (p.step h i).state := by
    intro p g i e k hi hs ha
    rw [step_call hi]
    exact ⟨_, rfl, hstep e p.state ha.1 hs⟩
  exact run_of_wp hcall schedule hp hI

end Pool

end DiaryMemory
