import DiaryMemory.Interleaving

/-!
# What programs ask, and what they are given

A `Pact` says which calls a program may make and what their replies promise, whatever the
state. A program `Ensures` what follows for the values it returns : the promises of the replies
it got are all it knows. A handler `Honours` a pact on the states of an invariant when it keeps
the promises there and every call allowed keeps the invariant. Neither side looks at the calls
of other programs, so both hold under every schedule (`Pool.run_of_honours`).

A program that keeps a contract and a pact keeps both together (`Prog.wp_beside`). `Prog.hoist`
puts a program for each call of another program; a pact between the callers and the programs put
in their place is one for the whole (`Prog.wp_hoist`).
-/

namespace DiaryMemory

/-- The calls a program may make, and what it may expect of a reply. -/
structure Pact (E : Type) (R : E → Type) where
  asks : E → Prop
  gives : (e : E) → R e → Prop

namespace Pact

variable {E : Type} {R : E → Type} {α β X S : Type}

/-- The pact, seen as a contract that knows no state. -/
def contract (P : Pact E R) : Contract E R Unit where
  pre e _ := P.asks e
  post e _ r _ := P.gives e r

/-- Every call is allowed, and a value that is returned satisfies `Q`. -/
structure Ensures (P : Pact E R) (p : ExceptT X (Prog E R) α) (Q : α → Prop) : Prop where
  keeps : wp P.contract p (fun r _ => ∀ a, r = .ok a → Q a) ()

variable {P P' : Pact E R} {p : ExceptT X (Prog E R) α} {Q Q' : α → Prop}

/-! ## Rules -/

theorem Ensures.imp (h : P.Ensures p Q) (hQ : ∀ a, Q a → Q' a) : P.Ensures p Q' :=
  ⟨wp_imp (fun _ _ hr a ha => hQ a (hr a ha)) h.keeps⟩

theorem ensures_pure {a : α} (h : Q a) : P.Ensures (pure a : ExceptT X (Prog E R) α) Q := by
  refine ⟨(wp_pure a _ ()).mpr fun b hb => ?_⟩
  rwa [← Except.ok.inj hb]

theorem ensures_throw (x : X) : P.Ensures (throw x : ExceptT X (Prog E R) α) Q := by
  refine ⟨(wp_throw x _ ()).mpr fun b hb => ?_⟩
  cases hb

/-- One part after the other; `Q'` is what the first one hands on. -/
theorem ensures_bind (Q' : α → Prop) {f : α → ExceptT X (Prog E R) β} {Q : β → Prop}
    (hp : P.Ensures p Q') (hf : ∀ a, Q' a → P.Ensures (f a) Q) : P.Ensures (p >>= f) Q := by
  refine ⟨(wp_bind p f _ ()).mpr (wp_imp (fun r _ hr => ?_) hp.keeps)⟩
  cases r with
  | error x =>
    intro b hb
    cases hb
  | ok a => exact (hf a (hr a rfl)).keeps

/-- A part whose value does not matter to the rest. -/
theorem ensures_seq {f : α → ExceptT X (Prog E R) β} {Q : β → Prop}
    (hp : P.Ensures p fun _ => True) (hf : ∀ a, P.Ensures (f a) Q) : P.Ensures (p >>= f) Q :=
  ensures_bind (fun _ => True) hp fun a _ => hf a

theorem ensures_capture (h : P.Ensures p Q) :
    P.Ensures (capture p) fun r => ∀ a, r = .ok a → Q a := by
  refine ⟨(wp_capture p _ ()).mpr (wp_imp (fun r _ hr => ?_) h.keeps)⟩
  rintro _ hr'
  rwa [← Except.ok.inj hr']

theorem ensures_attempt {q : Prog E R (Except X α)}
    (h : q.wp P.contract (fun r _ => ∀ a, r = .ok a → Q a) ()) : P.Ensures (attempt q) Q :=
  ⟨h⟩

theorem ensures_ask {q : Prog E R α} (h : q.wp P.contract (fun a _ => Q a) ()) :
    P.Ensures (ask q : ExceptT X (Prog E R) α) Q := by
  refine ⟨(wp_ask q _ ()).mpr (Prog.wp_mono q (fun a _ ha b hb => ?_) h)⟩
  rwa [← Except.ok.inj hb]

/-- One call, whose reply is all that is learnt. -/
theorem wp_perform_of_asks {e : E} {Q : R e → Prop} (h : P.asks e) (hQ : ∀ r, P.gives e r → Q r) :
    (Prog.perform e).wp P.contract (fun r _ => Q r) () :=
  ⟨h, fun r _ hr => hQ r hr⟩

/-- A pact that asks no less and gives no less. -/
theorem wp_of_le {Q : α → Unit → Prop} (hasks : ∀ e, P.asks e → P'.asks e)
    (hgives : ∀ e r, P.asks e → P'.gives e r → P.gives e r) :
    ∀ q : Prog E R α, q.wp P.contract Q () → q.wp P'.contract Q ()
  | .ret _, h => h
  | .call e k, h => ⟨hasks e h.1, fun r _ hr =>
      wp_of_le hasks hgives (k r) (h.2 r () (hgives e r h.1 hr))⟩

/-! ## Pacts that allow every call -/

theorem wp_any (hP : ∀ e, P.asks e) {Q : α → Unit → Prop} (hQ : ∀ a, Q a ()) :
    ∀ q : Prog E R α, q.wp P.contract Q ()
  | .ret a => hQ a
  | .call e k => ⟨hP e, fun r _ _ => wp_any hP hQ (k r)⟩

theorem ensures_any (hP : ∀ e, P.asks e) (p : ExceptT X (Prog E R) α) :
    P.Ensures p fun _ => True :=
  ⟨wp_any hP (fun _ _ _ => trivial) p.run⟩

/-- A part whose value and calls do not matter to the rest. -/
theorem ensures_skip (hP : ∀ e, P.asks e) {f : α → ExceptT X (Prog E R) β} {Q : β → Prop}
    (hf : ∀ a, P.Ensures (f a) Q) : P.Ensures (p >>= f) Q :=
  ensures_seq (ensures_any hP p) hf

/-! ## Handlers -/

/-- On the states of `I`, allowed calls get the replies promised and lead to states of `I`. -/
def Honours (P : Pact E R) (h : (e : E) → S → R e × S) (I : S → Prop) : Prop :=
  ∀ e s, I s → P.asks e → P.gives e (h e s).1 ∧ I (h e s).2

end Pact

/-- What a handler keeps of its pact holds under every schedule. -/
theorem Pool.run_of_honours {ι E : Type} {R : E → Type} {α S : Type} [DecidableEq ι]
    {P : Pact E R} {h : (e : E) → S → R e × S} {I : S → Prop} {Q : ι → α → Unit → Prop}
    (hP : P.Honours h I) (schedule : List ι) {p : Pool ι E R α S}
    (hp : ∀ i, (p.progs i).wp P.contract (Q i) ()) (hI : I p.state) :
    (∀ i, ((p.run h schedule).progs i).wp P.contract (Q i) ()) ∧ I (p.run h schedule).state := by
  have hcall : ∀ (p : Pool ι E R α S) (g : ι → Unit) i e k, p.progs i = .call e k → I p.state →
      P.contract.pre e (g i) → ∃ t, P.contract.post e (g i) (h e p.state).1 t ∧
        I (p.step h i).state := by
    intro p g i e k hi hs ha
    obtain ⟨hgives, hnext⟩ := hP e p.state hs ha
    refine ⟨(), hgives, ?_⟩
    rwa [step_call hi]
  obtain ⟨g, hg, hlast⟩ := run_of_wp (g := fun _ => ()) hcall schedule hp hI
  exact ⟨hg, hlast⟩

/-! ## A pact beside a contract -/

/-- The contract, with the pact kept too. -/
def Pact.beside {E : Type} {R : E → Type} {T : Type} (P : Pact E R) (C : Contract E R T) :
    Contract E R T where
  pre e t := C.pre e t ∧ P.asks e
  post e t r t' := C.post e t r t' ∧ P.gives e r

theorem Prog.wp_beside {E : Type} {R : E → Type} {α T : Type} {C : Contract E R T} {P : Pact E R}
    {Q' : α → Unit → Prop} : ∀ (p : Prog E R α) {Q : α → T → Prop} {t : T}, p.wp C Q t →
      p.wp P.contract Q' () → p.wp (P.beside C) Q t
  | .ret _, _, _, h, _ => h
  | .call _ k, _, _, h, h' => ⟨⟨h.1, h'.1⟩, fun r t' hr =>
      wp_beside (k r) (h.2 r t' hr.1) (h'.2 r () hr.2)⟩

/-! ## Programs in the place of calls -/

/-- Each call is served by a program. -/
def Prog.hoist {E E' : Type} {R : E → Type} {R' : E' → Type} {α : Type}
    (f : (e : E) → Prog E' R' (R e)) : Prog E R α → Prog E' R' α
  | .ret a => .ret a
  | .call e k => (f e).bind fun r => (k r).hoist f

/-- What the programs in the place of calls do is all that the caller knows. -/
theorem Prog.wp_hoist {E E' : Type} {R : E → Type} {R' : E' → Type} {α T : Type}
    {C : Contract E R T} {C' : Contract E' R' T} {f : (e : E) → Prog E' R' (R e)}
    (hf : ∀ e t, C.pre e t → (f e).wp C' (fun r t' => C.post e t r t') t) :
    ∀ (p : Prog E R α) {Q : α → T → Prop} {t : T}, p.wp C Q t → (p.hoist f).wp C' Q t
  | .ret _, _, _, h => h
  | .call e k, _, t, h => (wp_prog_bind (f e) _ _ t).mpr (wp_mono (f e)
      (fun r _ hr => wp_hoist hf (k r) (h.2 r _ hr)) (hf e t h.1))

end DiaryMemory
