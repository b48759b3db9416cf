import Mathlib.Tactic.Common

/-!
# Programs that call out

A `Prog E R α` is a computation that issues calls `e : E`, receives a reply of type
`R e` for each of them, and returns an `α`. It is data : a handler decides what a
call does to a state (`Prog.run`), and a scheduler may stop between two calls.

A `Contract` says what a call needs of an abstract state and what it may do to it.
`Prog.wp` computes from a contract the weakest condition under which every run of
a program ends in a given postcondition, whatever the replies. A handler `Meets` a
contract through a view of its states; `Prog.run_of_wp` then carries what was proved
against the contract to the handler.

Programs that can fail are `ExceptT X (Prog E R)`. The rules `wp_bind`, `wp_capture` and
`wp_ask` reduce a `wp` over such a program call by call.
-/

namespace DiaryMemory

/-- A program issuing calls `E` with replies `R`. -/
inductive Prog (E : Type) (R : E → Type) (α : Type) : Type where
  | ret (a : α)
  | call (e : E) (k : R e → Prog E R α)

/-- What a call `e` requires of a state, and what it may reply and do. -/
structure Contract (E : Type) (R : E → Type) (T : Type) where
  pre : E → T → Prop
  post : (e : E) → T → R e → T → Prop

namespace Prog

variable {E : Type} {R : E → Type} {α β γ : Type} {S T X : Type}

/-- Run `p`, then the program its result selects. -/
def bind : Prog E R α → (α → Prog E R β) → Prog E R β
  | ret a, f => f a
  | call e k, f => call e fun r => (k r).bind f

instance : Monad (Prog E R) where
  pure := ret
  bind := bind

@[simp]
theorem ret_bind (a : α) (f : α → Prog E R β) : (ret a).bind f = f a := rfl

theorem bind_ret : ∀ p : Prog E R α, p.bind ret = p
  | ret _ => rfl
  | call e k => by
    simp only [bind]
    exact congrArg (call e) (funext fun r => bind_ret (k r))

theorem bind_assoc : ∀ (p : Prog E R α) (f : α → Prog E R β) (g : β → Prog E R γ),
    (p.bind f).bind g = p.bind fun a => (f a).bind g
  | ret _, _, _ => rfl
  | call e k, f, g => by
    simp only [bind]
    exact congrArg (call e) (funext fun r => bind_assoc (k r) f g)

instance : LawfulMonad (Prog E R) :=
  LawfulMonad.mk' _ bind_ret (fun _ _ => rfl) bind_assoc

/-- The program of a single call. -/
def perform (e : E) : Prog E R (R e) := call e ret

/-- Run against a handler of the calls. -/
def run (h : (e : E) → S → R e × S) : Prog E R α → S → α × S
  | ret a, s => (a, s)
  | call e k, s => (k (h e s).1).run h (h e s).2

theorem run_bind (h : (e : E) → S → R e × S) :
    ∀ (p : Prog E R α) (f : α → Prog E R β) (s : S),
      (p.bind f).run h s = (f (p.run h s).1).run h (p.run h s).2
  | ret _, _, _ => rfl
  | call e k, f, s => by
    simp only [bind, run]
    exact run_bind h (k (h e s).1) f (h e s).2

/-! ## Weakest preconditions -/

/-- The condition on the state under which every run of the program ends in `Q`,
every call finding its precondition. -/
def wp (C : Contract E R T) : Prog E R α → (α → T → Prop) → T → Prop
  | ret a, Q, t => Q a t
  | call e k, Q, t => C.pre e t ∧ ∀ r t', C.post e t r t' → (k r).wp C Q t'

variable {C : Contract E R T}

theorem wp_ret (a : α) (Q : α → T → Prop) (t : T) : (ret a : Prog E R α).wp C Q t ↔ Q a t :=
  Iff.rfl

theorem wp_prog_bind : ∀ (p : Prog E R α) (f : α → Prog E R β) (Q : β → T → Prop) (t : T),
    (p.bind f).wp C Q t ↔ p.wp C (fun a t' => (f a).wp C Q t') t
  | ret _, _, _, _ => Iff.rfl
  | call e k, f, Q, t => by
    simp only [bind, wp]
    exact and_congr_right fun _ => forall_congr' fun r => forall_congr' fun t' =>
      imp_congr_right fun _ => wp_prog_bind (k r) f Q t'

theorem wp_mono : ∀ (p : Prog E R α) {Q Q' : α → T → Prop} {t : T},
    (∀ a t', Q a t' → Q' a t') → p.wp C Q t → p.wp C Q' t
  | ret a, _, _, t, h, hw => h a t hw
  | call _ k, _, _, _, h, hw => ⟨hw.1, fun r t' hp => wp_mono (k r) h (hw.2 r t' hp)⟩

end Prog

/-! ## Handlers that meet a contract -/

/-- The handler `h` meets the contract, seen through `view`, on states with `Inv`. -/
def Contract.Meets {E : Type} {R : E → Type} {S T : Type} (C : Contract E R T)
    (h : (e : E) → S → R e × S) (view : S → T) (Inv : S → Prop) : Prop :=
  ∀ e s, Inv s → C.pre e (view s) →
    Inv (h e s).2 ∧ C.post e (view s) (h e s).1 (view (h e s).2)

theorem Prog.run_of_wp {E : Type} {R : E → Type} {S T α : Type} {C : Contract E R T}
    {h : (e : E) → S → R e × S} {view : S → T} {Inv : S → Prop} (hm : C.Meets h view Inv) :
    ∀ (p : Prog E R α) {Q : α → T → Prop} {s : S}, Inv s → p.wp C Q (view s) →
      Inv (p.run h s).2 ∧ Q (p.run h s).1 (view (p.run h s).2)
  | ret _, _, _, hi, hw => ⟨hi, hw⟩
  | call e k, _, s, hi, hw => by
    obtain ⟨hi', hpost⟩ := hm e s hi hw.1
    exact run_of_wp hm (k (h e s).1) hi' (hw.2 _ _ hpost)

/-- Two handlers that answer related states alike, on calls as the contract allows them, run a
program alike, unless one of the first handler's calls broke the relation for good. -/
theorem Prog.run_lockstep_unless {E : Type} {R : E → Type} {S S' T α : Type} {C : Contract E R T}
    {h : (e : E) → S → R e × S} {h' : (e : E) → S' → R e × S'} {view : S → T}
    {Rel : S → S' → Prop} {Broken : S → Prop} (hbroken : ∀ e s, Broken s → Broken (h e s).2)
    (hstep : ∀ e s s', Rel s s' → C.pre e (view s) →
      C.post e (view s) (h e s).1 (view (h e s).2) ∧
        (Broken (h e s).2 ∨ (h e s).1 = (h' e s').1 ∧ Rel (h e s).2 (h' e s').2)) :
    ∀ (p : Prog E R α) {Q : α → T → Prop} {s : S} {s' : S'}, Rel s s' → p.wp C Q (view s) →
      Broken (p.run h s).2 ∨ (p.run h s).1 = (p.run h' s').1 ∧
        Rel (p.run h s).2 (p.run h' s').2 ∧ Q (p.run h s).1 (view (p.run h s).2)
  | ret _, _, _, _, hr, hw => .inr ⟨rfl, hr, hw⟩
  | call e k, Q, s, s', hr, hw => by
    obtain ⟨hpost, hbreaks | ⟨hreply, hr'⟩⟩ := hstep e s s' hr hw.1
    · have hstays : ∀ (q : Prog E R α) {s : S}, Broken s → Broken (q.run h s).2 := by
        intro q
        induction q with
        | ret a => exact fun hs => hs
        | call e k ih => exact fun hs => ih _ (hbroken e _ hs)
      exact .inl (hstays (k (h e s).1) hbreaks)
    · have hrest := run_lockstep_unless hbroken hstep (k (h e s).1) hr' (hw.2 _ _ hpost)
      simp only [run, ← hreply]
      exact hrest

/-- Two handlers that always answer related states alike. -/
theorem Prog.run_lockstep {E : Type} {R : E → Type} {S S' T α : Type} {C : Contract E R T}
    {h : (e : E) → S → R e × S} {h' : (e : E) → S' → R e × S'} {view : S → T}
    {Rel : S → S' → Prop}
    (hstep : ∀ e s s', Rel s s' → C.pre e (view s) → (h e s).1 = (h' e s').1 ∧
      Rel (h e s).2 (h' e s').2 ∧ C.post e (view s) (h e s).1 (view (h e s).2))
    (p : Prog E R α) {Q : α → T → Prop} {s : S} {s' : S'} (hr : Rel s s')
    (hw : p.wp C Q (view s)) : (p.run h s).1 = (p.run h' s').1 ∧
      Rel (p.run h s).2 (p.run h' s').2 ∧ Q (p.run h s).1 (view (p.run h s).2) := by
  refine (run_lockstep_unless (fun _ _ (hfalse : False) => hfalse)
    (fun e s s' hs hpre => ?_) p hr hw).resolve_left id
  obtain ⟨hreply, hr', hpost⟩ := hstep e s s' hs hpre
  exact ⟨hpost, .inr ⟨hreply, hr'⟩⟩

/-! ## Programs that can fail -/

section Fallible

variable {E : Type} {R : E → Type} {α β : Type} {T X : Type} {C : Contract E R T}

/-- Weakest precondition of a program that returns a value or raises. -/
def wp (C : Contract E R T) (p : ExceptT X (Prog E R) α) (Q : Except X α → T → Prop) (t : T) :
    Prop :=
  Prog.wp C p.run Q t

/-- Issue a call whose reply may be an exception. -/
def attempt (p : Prog E R (Except X α)) : ExceptT X (Prog E R) α := ExceptT.mk p

/-- Issue a call that always answers. -/
def ask (p : Prog E R α) : ExceptT X (Prog E R) α := ExceptT.mk (p.bind fun a => .ret (.ok a))

/-- Run a program that may raise, and return what it did. -/
def capture (p : ExceptT X (Prog E R) α) : ExceptT X (Prog E R) (Except X α) :=
  ExceptT.mk (p.run.bind fun r => .ret (.ok r))

@[simp]
theorem wp_pure (a : α) (Q : Except X α → T → Prop) (t : T) :
    wp C (pure a : ExceptT X (Prog E R) α) Q t ↔ Q (.ok a) t :=
  Iff.rfl

@[simp]
theorem wp_throw (x : X) (Q : Except X α → T → Prop) (t : T) :
    wp C (throw x : ExceptT X (Prog E R) α) Q t ↔ Q (.error x) t :=
  Iff.rfl

/-- After a program that may raise, the continuation runs on a value only. -/
def onValue (C : Contract E R T) (f : α → ExceptT X (Prog E R) β) (Q : Except X β → T → Prop) :
    Except X α → T → Prop
  | .ok a, t => wp C (f a) Q t
  | .error x, t => Q (.error x) t

theorem wp_bind (p : ExceptT X (Prog E R) α) (f : α → ExceptT X (Prog E R) β)
    (Q : Except X β → T → Prop) (t : T) :
    wp C (p >>= f) Q t ↔ wp C p (onValue C f Q) t := by
  refine (Prog.wp_prog_bind p.run _ Q t).trans ?_
  constructor
  · exact Prog.wp_mono p.run fun r t' hr => by cases r <;> exact hr
  · exact Prog.wp_mono p.run fun r t' hr => by cases r <;> exact hr

theorem wp_ask (p : Prog E R α) (Q : Except X α → T → Prop) (t : T) :
    wp C (ask p) Q t ↔ p.wp C (fun a t' => Q (.ok a) t') t :=
  Prog.wp_prog_bind p _ Q t

theorem wp_capture (p : ExceptT X (Prog E R) α) (Q : Except X (Except X α) → T → Prop) (t : T) :
    wp C (capture p) Q t ↔ wp C p (fun r t' => Q (.ok r) t') t :=
  Prog.wp_prog_bind p.run _ Q t

theorem wp_imp {p : ExceptT X (Prog E R) α} {Q Q' : Except X α → T → Prop} {t : T}
    (h : ∀ r t', Q r t' → Q' r t') (hw : wp C p Q t) : wp C p Q' t :=
  Prog.wp_mono p.run h hw

end Fallible

end DiaryMemory
