import DiaryMemory.System

/-!
# Paths

A `Path` is a sequence of repository calls that returned one after the other. A
procedure whose repository calls are known beforehand `Completes` them, or stops at
the first one that raises, with the effects of those before it (`Completes`). The calls
it makes outside the store do not show.
-/

namespace DiaryMemory

variable {kind : StoreKind} {engine : SearchEngine} {env : Env}

/-- The effects of calls, one after the other. -/
def RepoCall.effects (cs : List RepoCall) (T : Tables) : Tables := cs.foldl (fun T c => c.effect T) T

theorem RepoCall.effects_append (cs cs' : List RepoCall) (T : Tables) :
    effects (cs ++ cs') T = effects cs' (effects cs T) :=
  List.foldl_append

/-- A call outside the store after which nothing of note changed. -/
theorem Told.later {c : SystemCall} {w w' : World (kind.backend engine).State} (h : Told c w w')
    (hprovider : c.isProvider = false)
    (hset : ∀ community chunks, c ≠ .setLatestSources community chunks) : Later w w' where
  store := h.store
  latest := h.latest hset
  draws := h.draws
  log := h.log
  failures := h.failures
  asked := by rw [h.asked, hprovider, if_neg Bool.false_ne_true, List.append_nil]

/-- The calls returned one after the other, between the two worlds. -/
inductive Path (env : Env) (w : World (kind.backend engine).State) :
    List RepoCall → World (kind.backend engine).State → Prop
  | nil : Path env w [] w
  | later {cs w₁ w₂} (h : Path env w cs w₁) (hl : Later w₁ w₂) : Path env w cs w₂
  | call {cs c v w₁ w₂} (h : Path env w cs w₁) (hc : Returned env c w₁ v w₂) :
    Path env w (cs ++ [c]) w₂

namespace Path

variable {w w' w₁ w₂ : World (kind.backend engine).State} {cs cs' : List RepoCall} {c : RepoCall}

theorem rows (h : Path env w cs w₁) : w₁.rows = RepoCall.effects cs w.rows := by
  induction h with
  | nil => rfl
  | later _ hl ih => rw [hl.rows, ih]
  | call _ hc ih =>
    rw [hc.rows, ih, RepoCall.effects_append]
    rfl

theorem latest (h : Path env w cs w₁) : w₁.latestSources = w.latestSources := by
  induction h with
  | nil => rfl
  | later _ hl ih => exact hl.latest.trans ih
  | call _ hc ih => exact hc.latest.trans ih

theorem draws (h : Path env w cs w₁) : w.draws ≤ w₁.draws := by
  induction h with
  | nil => exact le_rfl
  | later _ hl ih => exact ih.trans hl.draws
  | call _ hc ih => exact ih.trans hc.draws

theorem log (h : Path env w cs w₁) : w.log <+: w₁.log := by
  induction h with
  | nil => exact List.prefix_rfl
  | later _ hl ih => exact ih.trans hl.log
  | call _ hc ih => exact ih.trans hc.log

theorem failures (h : Path env w cs w₁) : w₁.failures = w.failures := by
  induction h with
  | nil => rfl
  | later _ hl ih => exact hl.failures.trans ih
  | call _ hc ih => exact hc.failures.trans ih

theorem asked (h : Path env w cs w₁) : w₁.asked = w.asked := by
  induction h with
  | nil => rfl
  | later _ hl ih => exact hl.asked.trans ih
  | call _ hc ih => exact hc.asked.trans ih

/-- Calls without an effect on the rows leave the store as it is. -/
theorem store_of_fixed (h : Path env w cs w₁) (hcs : ∀ c ∈ cs, c.effect w.rows = w.rows) :
    w₁.store = w.store ∧ w₁.rows = w.rows := by
  induction h with
  | nil => exact ⟨rfl, rfl⟩
  | later _ hl ih =>
    obtain ⟨hstore, hrows⟩ := ih hcs
    exact ⟨hl.store.trans hstore, hl.rows.trans hrows⟩
  | @call cs c _ _ _ _ hc ih =>
    obtain ⟨hstore, hrows⟩ := ih fun c' hc' => hcs c' (List.mem_append_left _ hc')
    have hlast := hcs c (List.mem_append_right _ (List.mem_singleton_self c))
    rw [← hrows] at hlast
    exact ⟨(hc.store hlast).trans hstore, hc.rows.trans (hlast.trans hrows)⟩

/-- Reads leave the store as it is. -/
theorem store (h : Path env w cs w₁) (hcs : ∀ c ∈ cs, ∀ T : Tables, c.effect T = T) :
    w₁.store = w.store :=
  (h.store_of_fixed fun c hc => hcs c hc w.rows).1

theorem append (h : Path env w cs w₁) (h' : Path env w₁ cs' w₂) : Path env w (cs ++ cs') w₂ := by
  induction h' with
  | nil => rwa [List.append_nil]
  | later _ hl ih => exact ih.later hl
  | call _ hc ih =>
    rw [← List.append_assoc]
    exact ih.call hc

theorem of_later (h : Later w w₁) : Path env w [] w₁ := .later .nil h

theorem single {v : RepoReply c} (h : Returned env c w v w₁) : Path env w [c] w₁ := .call .nil h

theorem cons {v : RepoReply c} (h : Returned env c w v w₁) (h' : Path env w₁ cs w₂) :
    Path env w (c :: cs) w₂ :=
  (single h).append h'

theorem of_nil (h : Path env w [] w₁) : Later w w₁ := by
  generalize hcalls : ([] : List RepoCall) = calls at h
  induction h with
  | nil => exact .refl w
  | later _ hl ih => exact (ih hcalls).trans hl
  | call => simp at hcalls

/-- The first call of a path, and the others. -/
theorem uncons (h : Path env w (c :: cs) w') :
    ∃ w₁ v w₂, Later w w₁ ∧ Returned env c w₁ v w₂ ∧ Path env w₂ cs w' := by
  generalize hcalls : c :: cs = calls at h
  induction h generalizing cs with
  | nil => cases hcalls
  | later _ hl ih =>
    obtain ⟨w₁, v, w₂, hbefore, hfirst, hrest⟩ := ih hcalls
    exact ⟨w₁, v, w₂, hbefore, hfirst, hrest.later hl⟩
  | @call done _ v w₁ w₂ h hc ih =>
    cases done with
    | nil =>
      obtain ⟨rfl, rfl⟩ := List.cons.inj hcalls
      exact ⟨w₁, v, w₂, h.of_nil, hc, .nil⟩
    | cons d done =>
      obtain ⟨rfl, rfl⟩ := List.cons.inj hcalls
      obtain ⟨w₁, v, w₂, hbefore, hfirst, hrest⟩ := ih rfl
      exact ⟨w₁, v, w₂, hbefore, hfirst, hrest.call hc⟩

end Path

/-- Every call of a path returned. -/
theorem Path.returned {w w' : World (kind.backend engine).State} {cs : List RepoCall}
    (h : Path env w cs w') : ∀ c ∈ cs, ∃ (w₁ w₂ : World (kind.backend engine).State)
      (v : RepoReply c), Returned env c w₁ v w₂ := by
  induction h with
  | nil => exact List.forall_mem_nil _
  | later _ _ ih => exact ih
  | call _ hc ih =>
    intro c hcm
    rcases List.mem_append.mp hcm with hcm | hcm
    · exact ih c hcm
    · rw [List.mem_singleton.mp hcm]
      exact ⟨_, _, _, hc⟩

/-- Where no call fails by itself, one that raised was refused. -/
theorem Raised.refused {w w' : World (kind.backend engine).State} {c : RepoCall} {e : Exn}
    (henv : env.Reliable) (h : Raised env c w e w') : c.Refused kind w.rows := by
  obtain ⟨n, -, hfails | ⟨-, hrefused⟩⟩ := h.why
  · simp [henv n c] at hfails
  · exact hrefused

/-- The calls `cs` were made in turn : all of them returned, and the result is as `V`
says, or one of them raised. -/
def Completes {α : Type} (env : Env) (cs : List RepoCall) (w : World (kind.backend engine).State)
    (V : α → Prop) : Except Exn α → World (kind.backend engine).State → Prop
  | .ok a, w' => V a ∧ Path env w cs w'
  | .error e, w' => ∃ done c rest w₁, cs = done ++ c :: rest ∧ Path env w done w₁ ∧
    Raised env c w₁ e w'

namespace Completes

variable {α β : Type} {w w₁ w' : World (kind.backend engine).State} {pre cs post : List RepoCall}
  {c : RepoCall} {V : α → Prop} {V' : β → Prop} {r : Except Exn α} {e : Exn}

/-- The rows are those after the calls that returned. -/
theorem rows (h : Completes env cs w V r w') :
    ∃ done rest, cs = done ++ rest ∧ w'.rows = RepoCall.effects done w.rows := by
  cases r with
  | ok a => exact ⟨cs, [], (List.append_nil cs).symm, h.2.rows⟩
  | error e =>
    obtain ⟨done, c, rest, w₁, hcs, hpath, hraised⟩ := h
    exact ⟨done, c :: rest, hcs, hraised.rows.trans hpath.rows⟩

theorem asked (h : Completes env cs w V r w') : w'.asked = w.asked := by
  cases r with
  | ok a => exact h.2.asked
  | error e =>
    obtain ⟨done, c, rest, w₁, -, hpath, hraised⟩ := h
    exact hraised.asked.trans hpath.asked

theorem log (h : Completes env cs w V r w') : w.log <+: w'.log := by
  cases r with
  | ok a => exact h.2.log
  | error e =>
    obtain ⟨done, c, rest, w₁, -, hpath, hraised⟩ := h
    exact hpath.log.trans hraised.log

/-- Where no call raised, all of them returned. -/
theorem returned (h : Completes env cs w V r w') (hf : w'.failures = w.failures) :
    ∃ a, r = .ok a ∧ V a ∧ Path env w cs w' := by
  cases r with
  | ok a => exact ⟨a, rfl, h⟩
  | error e =>
    obtain ⟨done, c, rest, w₁, -, hpath, hraised⟩ := h
    have hfailures := hraised.failures
    rw [hf, hpath.failures] at hfailures
    simp at hfailures

/-- The first call raised, or it returned and the others follow. -/
theorem uncons (h : Completes env (c :: cs) w V r w') :
    (∃ e w₁, r = .error e ∧ Later w w₁ ∧ Raised env c w₁ e w') ∨
      ∃ w₁ v w₂, Later w w₁ ∧ Returned env c w₁ v w₂ ∧ Completes env cs w₂ V r w' := by
  cases r with
  | ok a =>
    obtain ⟨w₁, v, w₂, hl, hfirst, hrest⟩ := h.2.uncons
    exact .inr ⟨w₁, v, w₂, hl, hfirst, h.1, hrest⟩
  | error e =>
    obtain ⟨done, d, rest, w₂, hcs, hpath, hraised⟩ := h
    cases done with
    | nil =>
      obtain ⟨rfl, -⟩ := List.cons.inj hcs
      exact .inl ⟨e, w₂, rfl, hpath.of_nil, hraised⟩
    | cons d' done =>
      obtain ⟨rfl, rfl⟩ := List.cons.inj hcs
      obtain ⟨w₁, v, w₃, hl, hfirst, hrest⟩ := hpath.uncons
      exact .inr ⟨w₁, v, w₃, hl, hfirst, done, d, rest, w₂, rfl, hrest, hraised⟩

/-- Nothing is left to raise. -/
theorem of_nil (h : Completes env [] w V r w') : ∃ a, r = .ok a ∧ V a ∧ Later w w' := by
  cases r with
  | ok a => exact ⟨a, rfl, h.1, h.2.of_nil⟩
  | error e =>
    obtain ⟨done, c, rest, -, hcs, -⟩ := h
    simp at hcs

/-- A part that stopped stops the whole. -/
theorem within (hp : Path env w pre w₁) (h : Completes env cs w₁ V (.error e) w') :
    Completes env (pre ++ cs ++ post) w V' (.error e) w' := by
  obtain ⟨done, c, rest, w₂, rfl, hdone, hraised⟩ := h
  exact ⟨pre ++ done, c, rest ++ post, w₂, by simp, hp.append hdone, hraised⟩

theorem raised (h : Raised env c w e w') : Completes env (c :: cs) w V (.error e) w' :=
  ⟨[], c, cs, w, rfl, .nil, h⟩

theorem append (hp : Path env w pre w₁) (h : Completes env cs w₁ V r w') :
    Completes env (pre ++ cs) w V r w' := by
  cases r with
  | ok a => exact ⟨h.1, hp.append h.2⟩
  | error e =>
    have hw : Completes env (pre ++ cs ++ []) w V (.error e) w' := within hp h
    rwa [List.append_nil] at hw

theorem later (hl : Later w w₁) (h : Completes env cs w₁ V r w') : Completes env cs w V r w' :=
  append (.of_later hl) h

theorem cons {v : RepoReply c} (hc : Returned env c w v w₁) (h : Completes env cs w₁ V r w') :
    Completes env (c :: cs) w V r w' :=
  append (.single hc) h

end Completes

/-! ## Rules -/

section Rules

variable {P : Call → Tables → Prop} {w : World (kind.backend engine).State} {α β : Type}
  {c : RepoCall} {cs cs' : List RepoCall} {V : β → Prop} {U : α → Prop}

theorem completes_pure {b : β} (h : V b) :
    wp (contract kind engine env P) (pure b : Proc β) (Completes env [] w V) w :=
  ⟨h, .nil⟩

/-- A call, then the rest of the calls. -/
theorem completes_repo_bind {f : RepoReply c → Proc β} (ha : Allowed env w (.repo c))
    (hP : P (.repo c) w.rows)
    (h : ∀ v w₁, Sound env w₁ → Returned env c w v w₁ →
      wp (contract kind engine env P) (f v) (Completes env cs w₁ V) w₁) :
    wp (contract kind engine env P) (Proc.repo c >>= f) (Completes env (c :: cs) w V) w :=
  wp_repo_bind ha hP (fun _ _ _ hr => .raised hr) fun v w₁ hs hr =>
    wp_imp (fun _ _ hc => .cons hr hc) (h v w₁ hs hr)

/-- A call as the last one. -/
theorem completes_repo {V : RepoReply c → Prop} (ha : Allowed env w (.repo c))
    (hP : P (.repo c) w.rows) (hV : ∀ v, c.Returns w.rows v → V v) :
    wp (contract kind engine env P) (Proc.repo c) (Completes env [c] w V) w :=
  wp_repo ha hP (fun _ _ _ hr => .raised hr) fun v _ _ hr => ⟨hV v hr.value, .single hr⟩

/-- One part of the calls after the other. -/
theorem completes_seq {p : Proc α} {f : α → Proc β} (hs : Sound env w)
    (hp : wp (contract kind engine env P) p (Completes env cs w U) w)
    (h : ∀ a w₁, Sound env w₁ → U a → Path env w cs w₁ →
      wp (contract kind engine env P) (f a) (Completes env cs' w₁ V) w₁) :
    wp (contract kind engine env P) (p >>= f) (Completes env (cs ++ cs') w V) w :=
  wp_seq hs hp (fun _ _ _ he => .within  .nil he) fun a w₁ hs₁ hok =>
    wp_imp (fun _ _ hc => .append hok.2 hc) (h a w₁ hs₁ hok.1 hok.2)

end Rules

end DiaryMemory
