import DiaryMemory.MockConformance
import DiaryMemory.SqlConformance

/-!
# The contract of the services

A world is `Sound` when the rows of its store are linked, every identifier in it was
drawn, and the store is consistent. `contract` is what a service procedure relies on : a
repository call made under its guard raises and leaves the store alone (`Raised`), or
returns and has its effect (`Returned`); another call leaves the store alone (`Told`).
The parameter `P` is what the procedure promises of each of its calls in addition.

`Proc.exec_of_wp` carries what is proved against the contract to the runs on every kind of
store, with the `Trace` of the calls that were made : each on the rows the one before
left, under its guard, and as promised. What holds along every run of the services is
proved by induction on their traces.
-/

namespace DiaryMemory

/-! ## Sound worlds -/

/-- What a store keeps besides the links. -/
def StoreKind.Consistent (engine : SearchEngine) :
    (kind : StoreKind) → (kind.backend engine).State → Prop
  | .mock, s => MockDomainStore.Indexed s
  | .sql _, T => Tables.References T

theorem StoreKind.serves (engine : SearchEngine) :
    ∀ (kind : StoreKind) {s : (kind.backend engine).State}, kind.Consistent engine s →
      ((kind.backend engine).tables s).Linked → ∀ {c : RepoCall},
      c.Guard ((kind.backend engine).tables s) →
      kind.Consistent engine ((kind.backend engine).handle c s).2 ∧
        Serves (kind.backend engine) (c.Refused kind ((kind.backend engine).tables s)) c s
          ((kind.backend engine).handle c s)
  | .mock, _, hc, _, _, hg => MockDomainStore.serves hc hg
  | .sql _, _, hc, hl, _, hg => SqlDomainStore.serves hl hc hg

variable {kind : StoreKind} {engine : SearchEngine}

/-- The rows of the store of a world. -/
def World.rows (w : World (kind.backend engine).State) : Tables :=
  (kind.backend engine).tables w.store

/-- The world with an empty store. -/
def World.initial (kind : StoreKind) (engine : SearchEngine) :
    World (kind.backend engine).State where
  store := (kind.backend engine).init

/-- What holds of a world between two calls of a service. -/
structure Sound (env : Env) (w : World (kind.backend engine).State) : Prop where
  linked : w.rows.Linked
  minted : w.rows.Minted env.uuid w.draws
  consistent : kind.Consistent engine w.store

theorem sound_initial (kind : StoreKind) (engine : SearchEngine) (env : Env) :
    Sound env (World.initial kind engine) := by
  cases kind with
  | mock => exact ⟨Tables.linked_empty, Tables.minted_empty, MockDomainStore.indexed_empty⟩
  | sql dialect =>
    exact ⟨Tables.linked_empty, Tables.minted_empty,
      Tables.linked_empty.references fun _ h => absurd h Table.not_mem_empty⟩

/-! ## The outcomes of a call -/

/-- The repository call of an event that raised. -/
def Event.failure : Event → Option RepoCall
  | ⟨_, .repo c, true⟩ => some c
  | _ => none

/-- Whether a call goes to a provider. -/
def SystemCall.isProvider : SystemCall → Bool
  | .uuid4 | .now | .getLatestSources _ | .setLatestSources .. => false
  | _ => true

/-- The provider call of an event. -/
def Event.asked (e : Event) : Option SystemCall :=
  match e.call with
  | .sys c => if c.isProvider then some c else none
  | .repo _ => none

/-- The repository calls that raised so far. -/
def World.failures {S : Type} (w : World S) : List RepoCall := w.log.filterMap Event.failure

/-- The provider calls so far. -/
def World.asked {S : Type} (w : World S) : List SystemCall := w.log.filterMap Event.asked

/-- The world `v` comes after `w`, with nothing done to the store, no call that raised and
no provider asked in between. -/
structure Later {S : Type} (w v : World S) : Prop where
  store : v.store = w.store
  latest : v.latestSources = w.latestSources
  draws : w.draws ≤ v.draws
  log : w.log <+: v.log
  failures : v.failures = w.failures
  asked : v.asked = w.asked

theorem Later.refl {S : Type} (w : World S) : Later w w :=
  ⟨rfl, rfl, le_rfl, List.prefix_rfl, rfl, rfl⟩

theorem Later.trans {S : Type} {w v u : World S} (h : Later w v) (h' : Later v u) : Later w u where
  store := h'.store.trans h.store
  latest := h'.latest.trans h.latest
  draws := h.draws.trans h'.draws
  log := h.log.trans h'.log
  failures := h'.failures.trans h.failures
  asked := h'.asked.trans h.asked

theorem Later.rows {w v : World (kind.backend engine).State} (h : Later w v) : v.rows = w.rows := by
  rw [World.rows, h.store, World.rows]

/-- A repository call raised : by itself, or refused by the store. -/
structure Raised (env : Env) (c : RepoCall) (w : World (kind.backend engine).State) (e : Exn)
    (w' : World (kind.backend engine).State) : Prop where
  why : ∃ n, w.tick ≤ n ∧ (env.storeFails n c = some e ∨
    env.storeFails n c = none ∧ c.Refused kind w.rows)
  store : w'.store = w.store
  latest : w'.latestSources = w.latestSources
  draws : w.draws ≤ w'.draws
  log : w.log <+: w'.log
  failures : w'.failures = w.failures ++ [c]
  asked : w'.asked = w.asked

/-- A repository call returned. -/
structure Returned (env : Env) (c : RepoCall) (w : World (kind.backend engine).State)
    (v : RepoReply c) (w' : World (kind.backend engine).State) : Prop where
  served : ∃ n, w.tick ≤ n ∧ env.storeFails n c = none
  accepted : ¬ c.Refused kind w.rows
  value : c.Returns w.rows v
  rows : w'.rows = c.effect w.rows
  store : c.effect w.rows = w.rows → w'.store = w.store
  latest : w'.latestSources = w.latestSources
  draws : w.draws ≤ w'.draws
  log : w.log <+: w'.log
  failures : w'.failures = w.failures
  asked : w'.asked = w.asked

/-- Another call was answered. -/
structure Told (c : SystemCall) (w w' : World (kind.backend engine).State) : Prop where
  store : w'.store = w.store
  latest : (∀ community chunks, c ≠ .setLatestSources community chunks) →
    w'.latestSources = w.latestSources
  draws : w.draws ≤ w'.draws
  entry : w'.log = w.log ++ [⟨w.rows, .sys c, false⟩]
  failures : w'.failures = w.failures
  asked : w'.asked = w.asked ++ (if c.isProvider then [c] else [])

theorem Raised.rows {env : Env} {c : RepoCall} {w w' : World (kind.backend engine).State} {e : Exn}
    (h : Raised env c w e w') : w'.rows = w.rows := by
  rw [World.rows, h.store, World.rows]

theorem Told.log {c : SystemCall} {w w' : World (kind.backend engine).State} (h : Told c w w') :
    w.log <+: w'.log :=
  ⟨_, h.entry.symm⟩

theorem Told.rows {c : SystemCall} {w w' : World (kind.backend engine).State} (h : Told c w w') :
    w'.rows = w.rows := by
  rw [World.rows, h.store, World.rows]

/-- What a call outside the store may return : an identifier not drawn before, and what a
provider answers then, or at some moment from then on. -/
def Answers (env : Env) (w w' : World (kind.backend engine).State) :
    (c : SystemCall) → SystemReply c → Prop
  | .uuid4, r => ∃ j, w.draws ≤ j ∧ j < w'.draws ∧ r = env.uuid j
  | .now, r => ∃ n, w.tick ≤ n ∧ r = env.now n
  | .embed chunks, r => r = env.embed w.tick (chunks.map EventChunk.chunkText)
  | .embedQuery text, r => ∃ n, w.tick ≤ n ∧ r = env.embed n [text]
  | .complete prompt, r => ∃ n, w.tick ≤ n ∧ r = env.complete n prompt
  | .classify question, r => ∃ n, w.tick ≤ n ∧ r = env.classify n question
  | .rewrite question today, r => ∃ n, w.tick ≤ n ∧ r = env.rewrite n question today
  | .rewriteOutward question context, r =>
    ∃ n, w.tick ≤ n ∧ r = env.rewriteOutward n question context
  | .search query, r => ∃ n, w.tick ≤ n ∧ r = env.search n query
  | .getLatestSources community, r => r = (w.latestSources.find? community).map Prod.snd
  | .setLatestSources community chunks, _ =>
    w'.latestSources = w.latestSources.put (community, chunks)

/-! ## The contract -/

/-- What a call needs besides the promise. -/
def Allowed (env : Env) (w : World (kind.backend engine).State) : Call → Prop
  | .repo c => c.Guard w.rows ∧ ∀ id ∈ c.newIds, Drawn env.uuid w.draws id
  | .sys _ => True

/-- What a call may do. -/
def Outcome (env : Env) (w : World (kind.backend engine).State) :
    (c : Call) → Reply c → World (kind.backend engine).State → Prop
  | .repo c, .error e, w' => Raised env c w e w'
  | .repo c, .ok v, w' => Returned env c w v w'
  | .sys c, r, w' => Told c w w' ∧ Answers env w w' c r

/-- The contract between the services and what answers their calls. -/
def contract (kind : StoreKind) (engine : SearchEngine) (env : Env) (P : Call → Tables → Prop) :
    Contract Call Reply (World (kind.backend engine).State) where
  pre c w := Allowed env w c ∧ P c w.rows
  post c w r w' := Sound env w' ∧ Outcome env w c r w'

section Serving

variable {env : Env} {w : World (kind.backend engine).State}

theorem log_record (w : World (kind.backend engine).State) (before : Tables) (call : Call)
    (raised : Bool) : w.log <+: (w.record before call raised).log :=
  List.prefix_append _ _

theorem serve_repo (hs : Sound env w) {c : RepoCall} (ha : Allowed env w (.repo c)) :
    Sound env (serve (kind.backend engine) env (.repo c) w).2 ∧
      Outcome env w (.repo c) (serve (kind.backend engine) env (.repo c) w).1
        (serve (kind.backend engine) env (.repo c) w).2 := by
  simp only [serve, respond, serveRepo]
  cases hf : env.storeFails w.tick c with
  | some e =>
    exact ⟨⟨hs.linked, hs.minted, hs.consistent⟩, ⟨w.tick, le_rfl, Or.inl hf⟩, rfl, rfl, le_rfl,
      log_record w _ _ _, List.filterMap_append, by simp [World.asked, World.record, Event.asked]⟩
  | none =>
    obtain ⟨hcons, hserves⟩ := kind.serves engine hs.consistent hs.linked ha.1
    cases hr : (kind.backend engine).handle c w.store with
    | mk r s' =>
      rw [hr] at hcons hserves
      cases r with
      | error e =>
        obtain ⟨href, rfl⟩ := hserves.raised e rfl
        exact ⟨⟨hs.linked, hs.minted, hcons⟩, ⟨w.tick, le_rfl, Or.inr ⟨hf, href⟩⟩, rfl, rfl,
          le_rfl, log_record w _ _ _, List.filterMap_append,
          by simp [World.asked, World.record, World.withStore, Event.asked]⟩
      | ok v =>
        obtain ⟨hacc, hval, hrows⟩ := hserves.returned v rfl
        have hrows' : (kind.backend engine).tables s' = c.effect w.rows := hrows
        refine ⟨⟨?_, ?_, hcons⟩, ⟨w.tick, le_rfl, hf⟩, hacc, hval, hrows, fun he => ?_, rfl, le_rfl,
          log_record w _ _ _, ?_, ?_⟩
        · change ((kind.backend engine).tables s').Linked
          rw [hrows']
          exact hs.linked.effect ha.1
        · change ((kind.backend engine).tables s').Minted env.uuid w.draws
          rw [hrows']
          exact hs.minted.effect ha.2
        · exact hserves.unchanged (hrows.trans he)
        · simp [World.failures, World.record, World.withStore, Event.failure, raised, isRaise]
        · simp [World.asked, World.record, World.withStore, Event.asked]

theorem serve_sys (hs : Sound env w) (c : SystemCall) :
    Sound env (serve (kind.backend engine) env (.sys c) w).2 ∧
      Outcome env w (.sys c) (serve (kind.backend engine) env (.sys c) w).1
        (serve (kind.backend engine) env (.sys c) w).2 := by
  have ht : Told c w (serve (kind.backend engine) env (.sys c) w).2 := by
    refine ⟨?_, ?_, ?_, ?_, ?_, ?_⟩ <;> cases c <;>
      simp [serve, respond, answer, World.record, World.failures, World.asked, World.rows,
        Event.failure, Event.asked, SystemCall.isProvider, raised, List.filterMap_cons]
  have ha : Answers env w (serve (kind.backend engine) env (.sys c) w).2 c
      (serve (kind.backend engine) env (.sys c) w).1 := by
    cases c with
    | uuid4 => exact ⟨w.draws, le_rfl, Nat.lt_succ_self _, rfl⟩
    | embed chunks => rfl
    | getLatestSources community => rfl
    | setLatestSources community chunks => rfl
    | _ => exact ⟨w.tick, le_rfl, rfl⟩
  refine ⟨⟨?_, ?_, ?_⟩, ht, ha⟩
  · rw [ht.rows]
    exact hs.linked
  · rw [ht.rows]
    exact hs.minted.mono ht.draws
  · rw [ht.store]
    exact hs.consistent

/-- What answers the calls keeps the contract. -/
theorem serve_allowed (hs : Sound env w) {c : Call} (ha : Allowed env w c) :
    Sound env (serve (kind.backend engine) env c w).2 ∧
      Outcome env w c (serve (kind.backend engine) env c w).1
        (serve (kind.backend engine) env c w).2 := by
  cases c with
  | repo c => exact serve_repo hs ha
  | sys c => exact serve_sys hs c

end Serving

/-! ## Traces -/

/-- The rows after an event. -/
def Event.after (e : Event) : Tables :=
  match e.call with
  | .repo c => if e.raised then e.before else c.effect e.before
  | .sys _ => e.before

/-- The call of the event was made under its guard, and returned only what the store does
not refuse. -/
def Event.Served (kind : StoreKind) (e : Event) : Prop :=
  match e.call with
  | .repo c => c.Guard e.before ∧ (e.raised = false → ¬ c.Refused kind e.before)
  | .sys _ => True

/-- The calls `es` lead from the rows `T` to others, each made on linked rows, under its
guard and as promised. -/
inductive Trace (kind : StoreKind) (P : Call → Tables → Prop) (T : Tables) : List Event → Tables → Prop
  | nil : Trace kind P T [] T
  | snoc {es : List Event} {e : Event} (h : Trace kind P T es e.before) (linked : e.before.Linked)
      (served : e.Served kind) (promised : P e.call e.before) : Trace kind P T (es ++ [e]) e.after

namespace Trace

variable {P Q : Call → Tables → Prop} {T T' T'' : Tables} {es es' : List Event}

theorem single {e : Event} (linked : e.before.Linked) (served : e.Served kind)
    (promised : P e.call e.before) : Trace kind P e.before [e] e.after := by
  rw [← List.nil_append [e]]
  exact .snoc .nil linked served promised

theorem mono (hPQ : ∀ c T, P c T → Q c T) (h : Trace kind P T es T') : Trace kind Q T es T' := by
  induction h with
  | nil => exact .nil
  | snoc _ hl hg hp ih => exact .snoc ih hl hg (hPQ _ _ hp)

theorem append (h : Trace kind P T es T') (h' : Trace kind P T' es' T'') :
    Trace kind P T (es ++ es') T'' := by
  induction h' with
  | nil => rwa [List.append_nil]
  | snoc _ hl hg hp ih =>
    rw [← List.append_assoc]
    exact .snoc ih hl hg hp

/-- What every promised effect keeps holds at the end, and was found by every call. -/
theorem keeps {I : Tables → Prop} (h : Trace kind P T es T')
    (hstep : ∀ (c : RepoCall) T, T.Linked → c.Guard T → ¬ c.Refused kind T → P (.repo c) T → I T →
      I (c.effect T)) (hI : I T) : I T' ∧ ∀ e ∈ es, I e.before := by
  induction h with
  | nil => exact ⟨hI, fun e he => nomatch he⟩
  | @snoc es e _ hl hg hp ih =>
    obtain ⟨hbefore, hall⟩ := ih
    refine ⟨?_, fun e' he' => ?_⟩
    · obtain ⟨before, call, raised⟩ := e
      cases call with
      | sys c => exact hbefore
      | repo c =>
        cases raised with
        | true => exact hbefore
        | false => exact hstep c before hl hg.1 (hg.2 rfl) hp hbefore
    · rcases List.mem_append.mp he' with he' | he'
      · exact hall e' he'
      · rwa [List.mem_singleton.mp he']

theorem promised (h : Trace kind P T es T') : ∀ e ∈ es, P e.call e.before := by
  induction h with
  | nil => exact fun e he => nomatch he
  | snoc _ _ _ hp ih =>
    intro e he
    rcases List.mem_append.mp he with he | he
    · exact ih e he
    · rwa [List.mem_singleton.mp he]

end Trace

/-! ## Runs -/

section Runs

variable {env : Env} {P : Call → Tables → Prop} {w w' : World (kind.backend engine).State}
variable {α β : Type}

/-- The calls made between two worlds. -/
def Continues (P : Call → Tables → Prop) (w w' : World (kind.backend engine).State) : Prop :=
  ∃ es, w'.log = w.log ++ es ∧ Trace kind P w.rows es w'.rows

theorem Continues.refl (w : World (kind.backend engine).State) : Continues P w w :=
  ⟨[], (List.append_nil _).symm, .nil⟩

theorem Continues.trans {w'' : World (kind.backend engine).State} (h : Continues P w w')
    (h' : Continues P w' w'') : Continues P w w'' := by
  obtain ⟨es, hlog, ht⟩ := h
  obtain ⟨es', hlog', ht'⟩ := h'
  exact ⟨es ++ es', by rw [hlog', hlog, List.append_assoc], ht.append ht'⟩

theorem Continues.mono {Q : Call → Tables → Prop} (hPQ : ∀ c T, P c T → Q c T)
    (h : Continues P w w') : Continues Q w w' := by
  obtain ⟨es, hlog, ht⟩ := h
  exact ⟨es, hlog, ht.mono hPQ⟩

/-- A call is recorded with the rows it found. -/
theorem log_serve (c : Call) (w : World (kind.backend engine).State) :
    (serve (kind.backend engine) env c w).2.log =
      w.log ++ [⟨w.rows, c, raised c (serve (kind.backend engine) env c w).1⟩] := by
  cases c with
  | sys c => cases c <;> rfl
  | repo c =>
    simp only [serve, respond, serveRepo]
    cases env.storeFails w.tick c <;> rfl

theorem failures_serve (c : Call) (w : World (kind.backend engine).State) :
    (serve (kind.backend engine) env c w).2.failures = w.failures ++
      (Event.failure ⟨w.rows, c, raised c (serve (kind.backend engine) env c w).1⟩).toList := by
  rw [World.failures, log_serve, List.filterMap_append, World.failures]
  congr 1

/-- An allowed call as promised is one step of a trace. -/
theorem continues_serve {c : Call} (hs : Sound env w) (ha : Allowed env w c) (hP : P c w.rows) :
    Continues P w (serve (kind.backend engine) env c w).2 := by
  obtain ⟨-, ho⟩ := serve_allowed hs ha
  have hstep : ∀ e : Event, e.before = w.rows → e.call = c →
      (serve (kind.backend engine) env c w).2.log = w.log ++ [e] →
      (serve (kind.backend engine) env c w).2.rows = e.after →
      e.Served kind → Continues P w (serve (kind.backend engine) env c w).2 := by
    rintro ⟨before, call, raised⟩ rfl rfl hlog hrows hserved
    exact ⟨_, hlog, hrows ▸ .single hs.linked hserved hP⟩
  refine hstep _ rfl rfl (log_serve c w) ?_ ?_
  · cases c with
    | sys c => exact ho.1.rows
    | repo c =>
      revert ho
      cases hr : (serve (kind.backend engine) env (.repo c) w).1 with
      | error e => exact fun ho => Raised.rows ho
      | ok v => exact fun ho => Returned.rows ho
  · cases c with
    | sys c => trivial
    | repo c =>
      refine ⟨ha.1, fun hreturned => ?_⟩
      revert ho
      cases hr : (serve (kind.backend engine) env (.repo c) w).1 with
      | error e =>
        rw [hr] at hreturned
        cases hreturned
      | ok v => exact fun ho => Returned.accepted ho

/-- A procedure proved against the contract, run on a store. -/
theorem Proc.exec_of_wp {p : Proc α} {Q : Except Exn α → World (kind.backend engine).State → Prop}
    (hs : Sound env w) (h : wp (contract kind engine env P) p Q w) :
    Sound env (p.exec (kind.backend engine) env w).2 ∧
      Continues P w (p.exec (kind.backend engine) env w).2 ∧
      Q (p.exec (kind.backend engine) env w).1 (p.exec (kind.backend engine) env w).2 := by
  have hm : (contract kind engine env P).Meets (serve (kind.backend engine) env) id
      (fun w' => Sound env w' ∧ Continues P w w') := by
    rintro c v ⟨hv, hcont⟩ ⟨ha, hP⟩
    obtain ⟨hv', ho⟩ := serve_allowed hv ha
    exact ⟨⟨hv', hcont.trans (continues_serve hv ha hP)⟩, hv', ho⟩
  obtain ⟨⟨hsound, hcont⟩, hQ⟩ := Prog.run_of_wp hm p.run ⟨hs, .refl w⟩ h
  exact ⟨hsound, hcont, hQ⟩

/-- A call draws identifiers and gives none back. -/
theorem draws_serve (B : Backend) (env : Env) (c : Call) (w : World B.State) :
    w.draws ≤ (serve B env c w).2.draws := by
  cases c with
  | repo c =>
    simp only [serve, respond, serveRepo]
    cases env.storeFails w.tick c <;> exact le_rfl
  | sys c => cases c <;> simp [serve, respond, answer, World.record]

theorem Proc.draws_exec (B : Backend) (env : Env) (p : Proc α) (w : World B.State) :
    w.draws ≤ (p.exec B env w).2.draws := by
  have hprog : ∀ (q : Prog Call Reply (Except Exn α)) (v : World B.State),
      v.draws ≤ (q.run (serve B env) v).2.draws := by
    intro q
    induction q with
    | ret a => exact fun v => le_rfl
    | call c k ih => exact fun v => (draws_serve B env c v).trans (ih _ _)
  exact hprog p.run w

/-! ## Rules -/

variable {Q : Except Exn β → World (kind.backend engine).State → Prop}

/-- A repository call, then the rest. -/
theorem wp_repo_bind {c : RepoCall} {f : RepoReply c → Proc β}
    (ha : Allowed env w (.repo c)) (hP : P (.repo c) w.rows)
    (hraised : ∀ e w', Sound env w' → Raised env c w e w' → Q (.error e) w')
    (hreturned : ∀ v w', Sound env w' → Returned env c w v w' →
      wp (contract kind engine env P) (f v) Q w') :
    wp (contract kind engine env P) (Proc.repo c >>= f) Q w := by
  rw [wp_bind]
  refine ⟨⟨ha, hP⟩, fun r w' hpost => ?_⟩
  obtain ⟨hs', ho⟩ := hpost
  cases r with
  | error e => exact hraised e w' hs' ho
  | ok v => exact hreturned v w' hs' ho

/-- A repository call as the last step. -/
theorem wp_repo {c : RepoCall}
    {Q : Except Exn (RepoReply c) → World (kind.backend engine).State → Prop}
    (ha : Allowed env w (.repo c)) (hP : P (.repo c) w.rows)
    (hraised : ∀ e w', Sound env w' → Raised env c w e w' → Q (.error e) w')
    (hreturned : ∀ v w', Sound env w' → Returned env c w v w' → Q (.ok v) w') :
    wp (contract kind engine env P) (Proc.repo c) Q w := by
  refine ⟨⟨ha, hP⟩, fun r w' hpost => ?_⟩
  obtain ⟨hs', ho⟩ := hpost
  cases r with
  | error e => exact hraised e w' hs' ho
  | ok v => exact hreturned v w' hs' ho

/-- A call outside the store. -/
theorem wp_sys {c : SystemCall} {Q : SystemReply c → World (kind.backend engine).State → Prop}
    (hP : P (.sys c) w.rows)
    (h : ∀ r w', Sound env w' → Told c w w' → Answers env w w' c r → Q r w') :
    (Proc.sys c).wp (contract kind engine env P) Q w :=
  ⟨⟨trivial, hP⟩, fun r w' hpost => h r w' hpost.1 hpost.2.1 hpost.2.2⟩

theorem wp_uuid4_bind {f : String → Proc β} (hP : P (.sys .uuid4) w.rows)
    (h : ∀ j w', Sound env w' → Told .uuid4 w w' → w.draws ≤ j → j < w'.draws →
      wp (contract kind engine env P) (f (env.uuid j)) Q w') :
    wp (contract kind engine env P) (Proc.uuid4 >>= f) Q w := by
  rw [wp_bind]
  refine (wp_ask (Proc.sys .uuid4) _ w).mpr (wp_sys hP ?_)
  rintro r w' hs ht ⟨j, hj, hj', rfl⟩
  exact h j w' hs ht hj hj'

theorem wp_now_bind {f : DateTime → Proc β} (hP : P (.sys .now) w.rows)
    (h : ∀ now w', Sound env w' → Told .now w w' →
      wp (contract kind engine env P) (f now) Q w') :
    wp (contract kind engine env P) (Proc.now >>= f) Q w := by
  rw [wp_bind]
  exact (wp_ask (Proc.sys .now) _ w).mpr (wp_sys hP fun now w' hs ht _ => h now w' hs ht)

/-- What every promised call keeps holds where the procedure ends. -/
theorem wp_keeps {p : Proc α} {R : Except Exn α → World (kind.backend engine).State → Prop}
    {I : World (kind.backend engine).State → Prop}
    (hstep : ∀ c r v v', P c v.rows → Sound env v' → Outcome env v c r v' → I v → I v')
    (hI : I w) (hp : wp (contract kind engine env P) p R w) :
    wp (contract kind engine env P) p (fun r w' => R r w' ∧ I w') w := by
  have hprog : ∀ (q : Prog Call Reply (Except Exn α)) {v : World (kind.backend engine).State},
      I v → q.wp (contract kind engine env P) R v →
        q.wp (contract kind engine env P) (fun r w' => R r w' ∧ I w') v := by
    intro q
    induction q with
    | ret a => exact fun hv hq => ⟨hq, hv⟩
    | call c k ih =>
      exact fun hv hq => ⟨hq.1, fun r v' hpost =>
        ih r (hstep c r _ v' hq.1.2 hpost.1 hpost.2 hv) (hq.2 r v' hpost)⟩
  exact hprog p.run hI hp

theorem Outcome.log {c : Call} {r : Reply c} {v v' : World (kind.backend engine).State}
    (h : Outcome env v c r v') : v.log <+: v'.log := by
  cases c with
  | sys c => exact h.1.log
  | repo c =>
    cases r with
    | error e => exact Raised.log h
    | ok v => exact Returned.log h

/-- The log only grows. -/
theorem wp_log {p : Proc α} {R : Except Exn α → World (kind.backend engine).State → Prop}
    (hp : wp (contract kind engine env P) p R w) :
    wp (contract kind engine env P) p (fun r w' => R r w' ∧ w.log <+: w'.log) w :=
  wp_keeps (I := fun v => w.log <+: v.log) (fun _ _ _ _ _ _ ho hv => hv.trans ho.log)
    List.prefix_rfl hp

/-- Whatever a procedure ends in is sound. -/
theorem wp_sound {p : Proc α} {R : Except Exn α → World (kind.backend engine).State → Prop}
    (hs : Sound env w) (hp : wp (contract kind engine env P) p R w) :
    wp (contract kind engine env P) p (fun r w' => Sound env w' ∧ R r w') w :=
  wp_imp (fun _ _ h => h.symm) (wp_keeps (fun _ _ _ _ _ hs' _ _ => hs') hs hp)

/-- A promise can be weakened. -/
theorem wp_promise {P' : Call → Tables → Prop} {p : Proc α}
    {R : Except Exn α → World (kind.backend engine).State → Prop} (hPP : ∀ c T, P' c T → P c T)
    (hp : wp (contract kind engine env P') p R w) : wp (contract kind engine env P) p R w := by
  have hprog : ∀ (q : Prog Call Reply (Except Exn α)) {v : World (kind.backend engine).State},
      q.wp (contract kind engine env P') R v → q.wp (contract kind engine env P) R v := by
    intro q
    induction q with
    | ret a => exact fun hq => hq
    | call c k ih =>
      exact fun hq => ⟨⟨hq.1.1, hPP _ _ hq.1.2⟩, fun r v' hpost => ih r (hq.2 r v' hpost)⟩
  exact hprog p.run hp

/-- What one part of a procedure ends in is where the next one starts. -/
theorem wp_seq {p : Proc α} {f : α → Proc β}
    {R : Except Exn α → World (kind.backend engine).State → Prop} (hs : Sound env w)
    (hp : wp (contract kind engine env P) p R w)
    (herror : ∀ e w', Sound env w' → R (.error e) w' → Q (.error e) w')
    (hok : ∀ a w', Sound env w' → R (.ok a) w' → wp (contract kind engine env P) (f a) Q w') :
    wp (contract kind engine env P) (p >>= f) Q w := by
  rw [wp_bind]
  refine wp_imp (fun r w' hR => ?_) (wp_sound hs hp)
  cases r with
  | error e => exact herror e w' hR.1 hR.2
  | ok a => exact hok a w' hR.1 hR.2

/-- The same for a part that always returns. -/
theorem wp_seq_ok {p : Proc α} {f : α → Proc β}
    {R : α → World (kind.backend engine).State → Prop} (hs : Sound env w)
    (hp : wp (contract kind engine env P) p (fun r w' => ∃ a, r = .ok a ∧ R a w') w)
    (hok : ∀ a w', Sound env w' → R a w' → wp (contract kind engine env P) (f a) Q w') :
    wp (contract kind engine env P) (p >>= f) Q w := by
  refine wp_seq hs hp (fun e w' _ h => ?_) fun a w' hs' h => ?_
  · obtain ⟨_, he, -⟩ := h
    cases he
  · obtain ⟨_, he, hR⟩ := h
    cases he
    exact hok a w' hs' hR

end Runs

end DiaryMemory
