import DiaryMemory.Interleaving
import DiaryMemory.System
import Mathlib.Logic.Equiv.Basic

/-!
# A procedure among others, seen alone

The calls of a procedure that shares its store with others come at other moments than those
of a run alone, and draw other identifiers. `Env.along` is the environment that answers at
each moment as `env` does at another one : a run alone in it meets the answers the procedure
met among the others.

`Alone` says that a procedure is where a run alone would be, as long as the others left the
store as it is. It is kept by the calls of the procedure (`Alone.step`) and by the calls of
the others that leave the store alone (`Alone.beside`).
-/

namespace DiaryMemory

/-- The environment that answers the `n`-th call as `env` answers the `moment n`-th, and draws
the identifiers of `env` in another order. -/
def Env.along (env : Env) (moment : ℕ → ℕ) (ids : Equiv.Perm ℕ) : Env where
  uuid n := env.uuid (ids n)
  uuid_injective := env.uuid_injective.comp ids.injective
  now n := env.now (moment n)
  storeFails n := env.storeFails (moment n)
  embed n := env.embed (moment n)
  complete n := env.complete (moment n)
  classify n := env.classify (moment n)
  rewrite n := env.rewrite (moment n)
  rewriteOutward n := env.rewriteOutward (moment n)
  search n := env.search (moment n)

section Serving

variable {B : Backend} {env : Env} {v w : World B.State} {moment moment' : ℕ → ℕ}
  {ids ids' : Equiv.Perm ℕ}

/-- A call is answered from the present moment only. -/
theorem serve_congr (hmoment : moment v.tick = moment' v.tick) {c : Call}
    (hid : c = .sys .uuid4 → ids v.draws = ids' v.draws) :
    serve B (env.along moment ids) c v = serve B (env.along moment' ids') c v := by
  cases c with
  | repo c => simp only [serve, respond, serveRepo, Env.along, hmoment]
  | sys c =>
    cases c with
    | uuid4 => simp only [serve, respond, answer, Env.along, hid rfl]
    | _ => simp only [serve, respond, answer, Env.along, hmoment]

/-- A call finds the same answer on the same store. -/
theorem serve_along (hstore : v.store = w.store) (hlatest : v.latestSources = w.latestSources)
    (hmoment : moment v.tick = w.tick) {c : Call}
    (hid : c = .sys .uuid4 → ids v.draws = w.draws) :
    (serve B (env.along moment ids) c v).1 = (serve B env c w).1 ∧
      (serve B (env.along moment ids) c v).2.store = (serve B env c w).2.store ∧
      (serve B (env.along moment ids) c v).2.latestSources =
        (serve B env c w).2.latestSources := by
  cases c with
  | repo c =>
    simp only [serve, respond, serveRepo, Env.along, hmoment, hstore]
    cases env.storeFails w.tick c with
    | some e => exact ⟨rfl, hstore, hlatest⟩
    | none => exact ⟨rfl, rfl, hlatest⟩
  | sys c =>
    cases c with
    | uuid4 => exact ⟨congrArg env.uuid (hid rfl), hstore, hlatest⟩
    | getLatestSources community =>
      exact ⟨congrArg (fun t : LatestSources => (t.find? community).map Prod.snd) hlatest, hstore,
        hlatest⟩
    | setLatestSources community chunks =>
      exact ⟨rfl, hstore, congrArg (fun t : LatestSources => t.put (community, chunks)) hlatest⟩
    | _ =>
      simp only [serve, respond, answer, Env.along, hmoment]
      exact ⟨rfl, hstore, hlatest⟩

/-- How many identifiers a call draws. -/
theorem draws_serve_eq (env : Env) (c : Call) (w : World B.State) :
    (serve B env c w).2.draws = w.draws + if c = .sys .uuid4 then 1 else 0 := by
  cases c with
  | repo c =>
    simp only [serve, respond, serveRepo]
    cases env.storeFails w.tick c <;> rfl
  | sys c => cases c <;> simp [serve, respond, answer, World.record]

end Serving

variable {kind : StoreKind} {engine : SearchEngine} {env : Env} {α : Type}

/-- A call that is to a provider is recorded as one. -/
theorem asked_serve (c : Call) (w : World (kind.backend engine).State) :
    (serve (kind.backend engine) env c w).2.asked = w.asked ++
      (Event.asked ⟨w.rows, c, raised c (serve (kind.backend engine) env c w).1⟩).toList := by
  rw [World.asked, log_serve, List.filterMap_append]
  cases h : Event.asked ⟨w.rows, c, raised c (serve (kind.backend engine) env c w).1⟩ <;>
    simp [World.asked, h]

/-- Nothing was done to the store, and no provider was asked. -/
structure Untouched {S : Type} (w w' : World S) : Prop where
  store : w'.store = w.store
  latest : w'.latestSources = w.latestSources
  draws : w.draws ≤ w'.draws
  log : w.log <+: w'.log
  asked : w'.asked = w.asked

/-- A repository call that leaves the store as it is. -/
theorem untouched_repo {c : RepoCall} {w : World (kind.backend engine).State}
    (hstore : (serve (kind.backend engine) env (.repo c) w).2.store = w.store) :
    Untouched w (serve (kind.backend engine) env (.repo c) w).2 where
  store := hstore
  latest := by
    simp only [serve, respond, serveRepo]
    cases env.storeFails w.tick c <;> rfl
  draws := draws_serve _ env _ w
  log := by
    rw [log_serve]
    exact List.prefix_append _ _
  asked := by
    rw [asked_serve]
    exact List.append_nil _

theorem untouched_now (env : Env) (w : World (kind.backend engine).State) :
    Untouched w (serve (kind.backend engine) env (.sys .now) w).2 where
  store := rfl
  latest := rfl
  draws := le_rfl
  log := List.prefix_append _ _
  asked := by
    rw [asked_serve]
    exact List.append_nil _

theorem untouched_uuid4 (env : Env) (w : World (kind.backend engine).State) :
    Untouched w (serve (kind.backend engine) env (.sys .uuid4) w).2 where
  store := rfl
  latest := rfl
  draws := Nat.le_succ _
  log := List.prefix_append _ _
  asked := by
    rw [asked_serve]
    exact List.append_nil _

/-- The procedure `q` was started on `w₀` among others and is now at `p`, on `w`. A run of it
alone is at `p` on `v`, in every environment that answers up to there as its calls were
answered. -/
structure Alone (env : Env) (P : Env → Call → Tables → Prop)
    (Q : Env → α → World (kind.backend engine).State → Prop)
    (w₀ w : World (kind.backend engine).State) (q p : Prog Call Reply α)
    (v : World (kind.backend engine).State) (moment : ℕ → ℕ) (ids : Equiv.Perm ℕ) : Prop where
  store : v.store = w.store
  latest : v.latestSources = w.latestSources
  ids_lt : ∀ n < v.draws, ids n < w.draws
  start : w₀.log <+: v.log
  log : v.log.Sublist w.log
  asked : v.asked = w.asked
  entry : ∀ n, w₀.tick ≤ n → n < v.tick → w₀.tick ≤ moment n ∧ w.log[moment n]? = v.log[n]?
  follows : ∀ moment' ids', (∀ n < v.tick, moment' n = moment n) →
    (∀ n < v.draws, ids' n = ids n) →
    Sound (env.along moment' ids') v ∧
      p.wp (contract kind engine (env.along moment' ids') (P (env.along moment' ids')))
        (Q (env.along moment' ids')) v ∧
      q.run (serve (kind.backend engine) (env.along moment' ids')) w₀ =
        p.run (serve (kind.backend engine) (env.along moment' ids')) v

namespace Alone

variable {P : Env → Call → Tables → Prop}
  {Q : Env → α → World (kind.backend engine).State → Prop}
  {w₀ w w' v : World (kind.backend engine).State} {q p : Prog Call Reply α} {moment : ℕ → ℕ}
  {ids : Equiv.Perm ℕ}

/-- Before its first call a procedure is where a run alone would be. -/
theorem init (hs : Sound env w₀) (hq : ∀ moment ids, Sound (env.along moment ids) w₀ →
    q.wp (contract kind engine (env.along moment ids) (P (env.along moment ids)))
      (Q (env.along moment ids)) w₀) :
    Alone env P Q w₀ w₀ q q w₀ id (Equiv.refl ℕ) where
  store := rfl
  latest := rfl
  ids_lt _ hn := hn
  start := List.prefix_rfl
  log := List.Sublist.refl _
  asked := rfl
  entry _ hn hlt := absurd hlt hn.not_gt
  follows moment' ids' _ hids := by
    have hdrawn : ∀ id, Drawn env.uuid w₀.draws id →
        Drawn (env.along moment' ids').uuid w₀.draws id := by
      rintro id ⟨j, hj, rfl⟩
      exact ⟨j, hj, congrArg env.uuid (hids j hj)⟩
    have hm := hs.minted
    have hs' : Sound (env.along moment' ids') w₀ := ⟨hs.linked,
      ⟨fun x hx => hdrawn _ (hm.source x hx), fun x hx => hdrawn _ (hm.note x hx),
        fun x hx => hdrawn _ (hm.chunk x hx), fun x hx => hdrawn _ (hm.record x hx),
        fun x hx => hdrawn _ (hm.query x hx), fun x hx => hdrawn _ (hm.hit x hx),
        fun x hx => hdrawn _ (hm.trace x hx), fun x hx => hdrawn _ (hm.decision x hx),
        fun x hx => hdrawn _ (hm.rewrite x hx), fun x hx => hdrawn _ (hm.search x hx),
        fun x hx => hdrawn _ (hm.deadLetter x hx)⟩, hs.consistent⟩
    exact ⟨hs', hq moment' ids' hs', rfl⟩

/-- The environment so far. -/
theorem now (h : Alone env P Q w₀ w q p v moment ids) : Sound (env.along moment ids) v ∧
    p.wp (contract kind engine (env.along moment ids) (P (env.along moment ids)))
      (Q (env.along moment ids)) v ∧
    q.run (serve (kind.backend engine) (env.along moment ids)) w₀ =
      p.run (serve (kind.backend engine) (env.along moment ids)) v :=
  h.follows moment ids (fun _ _ => rfl) fun _ _ => rfl

theorem rows (h : Alone env P Q w₀ w q p v moment ids) : v.rows = w.rows := by
  rw [World.rows, h.store, World.rows]

/-- A call of another procedure that leaves the store alone, and asks no provider. -/
theorem beside (h : Alone env P Q w₀ w q p v moment ids) (hq : Untouched w w') :
    Alone env P Q w₀ w' q p v moment ids where
  store := h.store.trans hq.store.symm
  latest := h.latest.trans hq.latest.symm
  ids_lt n hn := (h.ids_lt n hn).trans_le hq.draws
  start := h.start
  log := h.log.trans hq.log.sublist
  asked := h.asked.trans hq.asked.symm
  entry n hn hlt := by
    obtain ⟨hm, he⟩ := h.entry n hn hlt
    refine ⟨hm, ?_⟩
    obtain ⟨es, hes⟩ := hq.log
    rw [List.getElem?_eq_getElem hlt] at he ⊢
    rw [← hes, List.getElem?_append_left (List.getElem?_eq_some_iff.mp he).1, he]
  follows := h.follows

/-- A call of the procedure itself. -/
theorem step {c : Call} {k : Reply c → Prog Call Reply α}
    (h : Alone env P Q w₀ w q (.call c k) v moment ids) :
    ∃ v' moment' ids', Alone env P Q w₀ (serve (kind.backend engine) env c w).2 q
        (k (serve (kind.backend engine) env c w).1) v' moment' ids' ∧
      Outcome (env.along moment' ids') v c (serve (kind.backend engine) env c w).1 v' ∧
      Allowed (env.along moment' ids') v c ∧ P (env.along moment' ids') c v.rows := by
  set moment₁ := Function.update moment v.tick w.tick with hmoment₁
  set ids₁ := ids.trans (Equiv.swap (ids v.draws) w.draws) with hids₁
  have htick : moment₁ v.tick = w.tick := Function.update_self ..
  have hdraw : ids₁ v.draws = w.draws := Equiv.swap_apply_left ..
  have hmomentLt : ∀ n < v.tick, moment₁ n = moment n := fun n hn =>
    Function.update_of_ne hn.ne _ _
  have hidsLt : ∀ n < v.draws, ids₁ n = ids n := fun n hn =>
    Equiv.swap_apply_of_ne_of_ne (fun he => hn.ne (ids.injective he)) (h.ids_lt n hn).ne
  obtain ⟨hreply, hstore, hlatest⟩ := @serve_along (kind.backend engine) env v w moment₁ ids₁
    h.store h.latest htick c fun _ => hdraw
  set v' := (serve (kind.backend engine) (env.along moment₁ ids₁) c v).2 with hv'
  have hlogv : v'.log = v.log ++ [⟨v.rows, c, raised c
      (serve (kind.backend engine) (env.along moment₁ ids₁) c v).1⟩] := log_serve c v
  have hdraws : v'.draws = v.draws + if c = .sys .uuid4 then 1 else 0 := draws_serve_eq _ c v
  obtain ⟨hs₁, hwp₁, -⟩ := h.follows moment₁ ids₁ hmomentLt hidsLt
  refine ⟨v', moment₁, ids₁, ⟨hstore, hlatest, fun n hn => ?_, ?_, ?_, ?_, fun n hn hlt => ?_,
      fun moment' ids' hm hi => ?_⟩,
    hreply ▸ (serve_allowed hs₁ hwp₁.1.1).2, hwp₁.1⟩
  · rw [draws_serve_eq]
    rw [hdraws] at hn
    rcases Nat.lt_or_ge n v.draws with hlt | hge
    · rw [hidsLt n hlt]
      exact (h.ids_lt n hlt).trans_le (Nat.le_add_right _ _)
    · split at hn
      · obtain rfl : n = v.draws := by omega
        rw [hdraw]
        split
        · omega
        · contradiction
      · omega
  · exact h.start.trans (hlogv ▸ List.prefix_append _ _)
  · rw [hlogv, log_serve, hreply, h.rows]
    exact h.log.append (List.Sublist.refl _)
  · rw [asked_serve, asked_serve, hreply, h.rows, h.asked]
  · rw [World.tick, hlogv, List.length_append] at hlt
    rcases Nat.lt_succ_iff_lt_or_eq.mp hlt with hlt | rfl
    · obtain ⟨hm, he⟩ := h.entry n hn hlt
      rw [hmomentLt n hlt, hlogv, log_serve, List.getElem?_append_left hlt]
      refine ⟨hm, ?_⟩
      rw [List.getElem?_eq_getElem hlt] at he ⊢
      rw [List.getElem?_append_left (List.getElem?_eq_some_iff.mp he).1, he]
    · have hlast : moment₁ v.log.length = w.log.length := htick
      rw [hlast, hlogv, log_serve, hreply, h.rows]
      refine ⟨h.start.length_le.trans h.log.length_le, ?_⟩
      simp
  · have hvtick : v.tick < v'.tick := by
      rw [World.tick, World.tick, hlogv, List.length_append]
      exact Nat.lt_succ_self _
    have hvdraws : v.draws ≤ v'.draws := hdraws ▸ Nat.le_add_right _ _
    have hserve : serve (kind.backend engine) (env.along moment' ids') c v =
        serve (kind.backend engine) (env.along moment₁ ids₁) c v := by
      refine serve_congr (hm _ hvtick) fun hc => hi _ ?_
      rw [hdraws, if_pos hc]
      exact Nat.lt_succ_self _
    obtain ⟨hs', hwp', hrun'⟩ := h.follows moment' ids'
      (fun n hn => (hm n (hn.trans hvtick)).trans (hmomentLt n hn))
      fun n hn => (hi n (hn.trans_le hvdraws)).trans (hidsLt n hn)
    obtain ⟨hsound, hout⟩ := serve_allowed hs' hwp'.1.1
    rw [hserve] at hsound hout
    refine ⟨hsound, ?_, hrun'.trans ?_⟩
    · rw [← hreply]
      exact hwp'.2 _ _ ⟨hsound, hout⟩
    · rw [Prog.run, hserve, ← hreply]

end Alone

end DiaryMemory
