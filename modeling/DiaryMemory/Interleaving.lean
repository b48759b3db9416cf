import DiaryMemory.Effects
import Mathlib.Logic.Function.Basic

/-!
# Programs that share a state

A `Pool` holds a state and one program for each index, each part of the way through. A
schedule names, call by call, whose program makes its next call (`Pool.run`); a program that
has returned lets its turn pass. Running one program alone is one of the schedules
(`Pool.run_alone`).

`Pool.run_of_wp` is the rule for all schedules : every program keeps its own view of the
state, meets its weakest precondition in that view, and a relation ties the views to the pool.
It is enough that one call of one program keeps the relation.
-/

namespace DiaryMemory

/-- The value of a program that has returned. -/
def Prog.value? {E : Type} {R : E → Type} {α : Type} : Prog E R α → Option α
  | .ret a => some a
  | .call _ _ => none

theorem Prog.eq_ret_of_value? {E : Type} {R : E → Type} {α : Type} {q : Prog E R α} {a : α}
    (h : q.value? = some a) : q = .ret a := by
  cases q with
  | ret b => exact congrArg Prog.ret (Option.some.inj h)
  | call e k => cases h

/-- Programs over one state, each part of the way through. -/
structure Pool (ι E : Type) (R : E → Type) (α S : Type) where
  state : S
  progs : ι → Prog E R α

namespace Pool

variable {ι E : Type} {R : E → Type} {α S T : Type} [DecidableEq ι]

/-- The program of `i` makes its next call. -/
def step (h : (e : E) → S → R e × S) (p : Pool ι E R α S) (i : ι) : Pool ι E R α S :=
  match p.progs i with
  | .ret _ => p
  | .call e k => ⟨(h e p.state).2, Function.update p.progs i (k (h e p.state).1)⟩

/-- The programs make their calls in the order of a schedule. -/
def run (h : (e : E) → S → R e × S) (p : Pool ι E R α S) (schedule : List ι) : Pool ι E R α S :=
  schedule.foldl (step h) p

/-- Every program has returned. -/
def Returned (p : Pool ι E R α S) (results : ι → α) : Prop := ∀ i, p.progs i = .ret (results i)

variable {h : (e : E) → S → R e × S} {p : Pool ι E R α S} {i : ι}

theorem step_ret {a : α} (hi : p.progs i = .ret a) : p.step h i = p := by
  rw [step, hi]

theorem step_call {e : E} {k : R e → Prog E R α} (hi : p.progs i = .call e k) :
    p.step h i = ⟨(h e p.state).2, Function.update p.progs i (k (h e p.state).1)⟩ := by
  rw [step, hi]

theorem run_append (p : Pool ι E R α S) (schedule schedule' : List ι) :
    p.run h (schedule ++ schedule') = (p.run h schedule).run h schedule' :=
  List.foldl_append

/-- The turns of one program alone run it to its end. -/
theorem run_alone (h : (e : E) → S → R e × S) (i : ι) : ∀ (q : Prog E R α) (p : Pool ι E R α S),
    p.progs i = q → ∃ n, p.run h (List.replicate n i) =
      ⟨(q.run h p.state).2, Function.update p.progs i (.ret (q.run h p.state).1)⟩
  | .ret a, p, hi => by
    refine ⟨0, ?_⟩
    change p = ⟨p.state, Function.update p.progs i (.ret a)⟩
    rw [← hi, Function.update_eq_self]
  | .call e k, p, hi => by
    obtain ⟨n, hn⟩ := run_alone h i (k (h e p.state).1) (p.step h i) (by
      rw [step_call hi]
      exact Function.update_self ..)
    refine ⟨n + 1, ?_⟩
    rw [List.replicate_succ]
    refine hn.trans ?_
    rw [step_call hi, Function.update_idem]
    rfl

/-! ## One relation for all schedules -/

variable {C : Contract E R T} {Q : ι → α → T → Prop} {Rel : Pool ι E R α S → (ι → T) → Prop}

/-- A call of one program, in its own view. -/
theorem step_of_wp {g : ι → T}
    (hstep : ∀ p g i e k, p.progs i = .call e k → Rel p g → C.pre e (g i) →
      ∃ t, C.post e (g i) (h e p.state).1 t ∧ Rel (p.step h i) (Function.update g i t))
    (hwp : ∀ j, (p.progs j).wp C (Q j) (g j)) (hrel : Rel p g) (i : ι) :
    ∃ g', (∀ j, ((p.step h i).progs j).wp C (Q j) (g' j)) ∧ Rel (p.step h i) g' := by
  cases hi : p.progs i with
  | ret a =>
    rw [step_ret hi]
    exact ⟨g, hwp, hrel⟩
  | call e k =>
    have hw := hwp i
    rw [hi] at hw
    obtain ⟨t, hpost, hrel'⟩ := hstep p g i e k hi hrel hw.1
    refine ⟨Function.update g i t, fun j => ?_, hrel'⟩
    rw [step_call hi]
    by_cases hj : j = i
    · subst hj
      simpa using hw.2 _ t hpost
    · simpa [Function.update_of_ne hj] using hwp j

/-- What every call of every program keeps holds under every schedule. -/
theorem run_of_wp
    (hstep : ∀ p g i e k, p.progs i = .call e k → Rel p g → C.pre e (g i) →
      ∃ t, C.post e (g i) (h e p.state).1 t ∧ Rel (p.step h i) (Function.update g i t)) :
    ∀ (schedule : List ι) {p : Pool ι E R α S} {g : ι → T},
      (∀ j, (p.progs j).wp C (Q j) (g j)) → Rel p g →
      ∃ g', (∀ j, ((p.run h schedule).progs j).wp C (Q j) (g' j)) ∧ Rel (p.run h schedule) g'
  | [], _, g, hwp, hrel => ⟨g, hwp, hrel⟩
  | i :: schedule, _, _, hwp, hrel => by
    obtain ⟨g', hwp', hrel'⟩ := step_of_wp hstep hwp hrel i
    exact run_of_wp hstep schedule hwp' hrel'

/-- Where every program has returned, each ends in its postcondition. -/
theorem returned_of_wp
    (hstep : ∀ p g i e k, p.progs i = .call e k → Rel p g → C.pre e (g i) →
      ∃ t, C.post e (g i) (h e p.state).1 t ∧ Rel (p.step h i) (Function.update g i t))
    {schedule : List ι} {g : ι → T} {results : ι → α} (hwp : ∀ j, (p.progs j).wp C (Q j) (g j))
    (hrel : Rel p g) (hresults : (p.run h schedule).Returned results) :
    ∃ g', (∀ j, Q j (results j) (g' j)) ∧ Rel (p.run h schedule) g' := by
  obtain ⟨g', hwp', hrel'⟩ := run_of_wp hstep schedule hwp hrel
  refine ⟨g', fun j => ?_, hrel'⟩
  have hj := hwp' j
  rwa [hresults j] at hj

end Pool

end DiaryMemory
