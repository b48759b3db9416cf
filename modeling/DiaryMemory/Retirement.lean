import DiaryMemory.Recovery
import Mathlib.Data.List.Induction

/-!
# Chunks that are no longer active

An ingest embeds chunks that are active (`IngestCall`), a retry whatever chunk was listed as
failed (`RetryCall`). So a superseded or tombstoned chunk is left alone in every run in which
each retry finds active chunks only (`retired_run`).

`Call.OnActive` is what such a run promises of its calls, and `Tables.Retired` what two states
of it have in common. The states along a trace are related pairwise (`Trace.retired`).
-/

namespace DiaryMemory

variable {kind : StoreKind} {engine : SearchEngine}

/-- The chunk `id` is there, and active. -/
def Tables.IsActive (T : Tables) (id : String) : Prop :=
  ∃ c ∈ T.eventChunks, c.chunkId = id ∧ c.lifecycleState = .active

/-- What is embedded, and what is written of an embedding, is of active chunks. -/
def Call.OnActive : Call → Tables → Prop
  | .sys (.embed cs), T => ∀ c ∈ cs, ∃ x ∈ T.eventChunks, x.chunkId = c.chunkId ∧
    x.chunkText = c.chunkText ∧ x.lifecycleState = .active
  | .repo (.saveEmbeddingRecords rs), T => ∀ r ∈ rs, T.IsActive r.chunkId
  | .repo (.setChunkEmbeddingStatus id _), T => T.IsActive id
  | .repo (.hardDeleteSourceMessage ..), _ => False
  | _, _ => True

namespace Operation

/-- Ingests, deletes and retries. -/
def OnRevisions : Operation → Prop
  | ingest .. | delete .. | retry .. => True
  | _ => False

/-- A retry that can embed, and whose listing does not fail, finds active chunks only. -/
def FindsActive (env : Env) (w : World (kind.backend engine).State) : Operation → Prop
  | retry service community limit => service.embeddingClient.isSome →
    (env.storeFails w.tick (.listFailedEventChunks community limit)).isNone →
    ∀ c ∈ w.rows.listFailedEventChunks community limit, c.lifecycleState = .active
  | _ => True

instance (env : Env) (w : World (kind.backend engine).State) :
    (o : Operation) → Decidable (o.FindsActive env w)
  | retry service community limit => inferInstanceAs (Decidable (service.embeddingClient.isSome →
      (env.storeFails w.tick (.listFailedEventChunks community limit)).isNone →
      ∀ c ∈ w.rows.listFailedEventChunks community limit, c.lifecycleState = .active))
  | ingest .. | delete .. | hardDelete .. | ask .. | chat .. | dispatch .. => isTrue trivial

end Operation

/-! ## What the operations promise -/

section Promises

variable {env : Env} {client : Option EmbeddingClient} {community : String} {T₀ T : Tables}
  {c : Call}

theorem IngestPromise.onActive (h : IngestPromise env client community T₀ c T) : c.OnActive T := by
  obtain ⟨source, -, h⟩ := h
  have hactive : ∀ {id}, T.ActiveChunk source community id → T.IsActive id := by
    rintro id ⟨x, hx, hid, -, -, ha⟩
    exact ⟨x, hx, hid, ha⟩
  cases c with
  | sys c =>
    cases c with
    | embed cs => exact fun x hx => ⟨x, (h x hx).1, rfl, rfl, (h x hx).2.2⟩
    | _ => trivial
  | repo c =>
    cases c with
    | saveEmbeddingRecords rs => exact fun r hr => hactive (h r hr).2.2
    | setChunkEmbeddingStatus id status => exact hactive h.1
    | hardDeleteSourceMessage => exact h
    | _ => trivial

theorem DeleteCall.onActive (h : DeleteCall community c T) : c.OnActive T := by
  cases c with
  | sys c => exact absurd h id
  | repo c =>
    cases c with
    | getActiveNoteForExternalMessage | getActiveChunkForNote | markNote | markChunk => trivial
    | _ => exact absurd h id

/-- A listed chunk that was active is there, and active. -/
theorem Listed.active {limit : Option Int} {x : EventChunk} (h : Listed T₀ community limit x T)
    (hfinds : ∀ c ∈ T₀.listFailedEventChunks community limit, c.lifecycleState = .active) :
    ∃ y ∈ T.eventChunks, y.chunkId = x.chunkId ∧ y.chunkText = x.chunkText ∧
      y.lifecycleState = .active := by
  obtain ⟨hmem, status, hx⟩ := h
  exact ⟨_, hx, rfl, rfl, hfinds x hmem⟩

theorem RetryCall.onActive {limit : Option Int} (h : RetryCall env client community limit T₀ c T)
    (hfinds : client.isSome →
      ∀ x ∈ T₀.listFailedEventChunks community limit, x.lifecycleState = .active) :
    c.OnActive T := by
  cases c with
  | sys c =>
    cases c with
    | embed cs => exact fun x hx => (h.2 x hx).active (hfinds h.1)
    | uuid4 | now => trivial
    | _ => exact absurd h id
  | repo c =>
    cases c with
    | saveEmbeddingRecords rs =>
      intro r hr
      obtain ⟨-, hembeds, x, hlisted, hid⟩ := h r hr
      obtain ⟨client, hclient, -⟩ := hembeds.1
      obtain ⟨y, hy, hyid, -, ha⟩ := hlisted.active (hfinds (by rw [hclient]; rfl))
      exact ⟨y, hy, hyid.trans hid, ha⟩
    | setChunkEmbeddingStatus id status =>
      obtain ⟨-, ⟨client, hclient, -⟩, x, hlisted, hid⟩ := h
      obtain ⟨y, hy, hyid, -, ha⟩ := hlisted.active (hfinds (by rw [hclient]; rfl))
      exact ⟨y, hy, hyid.trans hid, ha⟩
    | listFailedEventChunks | saveIndexingDeadLetter => trivial
    | _ => exact absurd h id

/-- A retry whose listing fails makes no other call. -/
theorem continues_retry_unlisted {w : World (kind.backend engine).State} (hs : Sound env w)
    (service : ReconciliationService) {limit : Option Int} {e : Exn}
    (hfails : env.storeFails w.tick (.listFailedEventChunks community limit) = some e) :
    Continues Call.OnActive w
      ((service.retryFailedChunks community limit).exec (kind.backend engine) env w).2 := by
  unfold ReconciliationService.retryFailedChunks
  cases service.embeddingClient with
  | none => exact .refl w
  | some client =>
    have hserve : serve (kind.backend engine) env (.repo (.listFailedEventChunks community limit)) w =
        (.error e, w.record w.rows (.repo (.listFailedEventChunks community limit)) true) := by
      simp only [serve, respond, serveRepo, hfails]
      rfl
    have hlist : (Proc.listFailedEventChunks community limit).exec (kind.backend engine) env w =
        (.error e, _) := hserve
    have h := continues_serve (c := .repo (.listFailedEventChunks community limit))
      (P := Call.OnActive) hs ⟨trivial, List.forall_mem_nil _⟩ trivial
    rw [hserve] at h
    rw [Proc.exec_bind_error hlist]
    exact h

theorem Operation.continues_onActive {w : World (kind.backend engine).State} (hs : Sound env w)
    {o : Operation} (ho : o.OnRevisions) (hfinds : o.FindsActive env w) :
    Continues Call.OnActive w (o.run (kind.backend engine) env w) := by
  have hspec := (Operation.run_spec hs o).2
  cases o with
  | ingest service message => exact hspec.mono fun _ _ h => IngestPromise.onActive h
  | delete chat target community => exact hspec.mono fun _ _ h => DeleteCall.onActive h
  | retry service community limit =>
    cases hfails : env.storeFails w.tick (.listFailedEventChunks community limit) with
    | some e => exact continues_retry_unlisted hs service hfails
    | none =>
      refine hspec.mono fun _ _ h => RetryCall.onActive h fun hclient => ?_
      exact hfinds hclient (by rw [hfails]; rfl)
  | _ => exact absurd ho id

end Promises

/-! ## What becomes of a retired chunk -/

namespace Tables

/-- A chunk that is not active stays as it is, and gets no record. -/
def Retired (T T' : Tables) : Prop :=
  ∀ c ∈ T.eventChunks, c.lifecycleState ≠ .active → c ∈ T'.eventChunks ∧
    ∀ r ∈ T'.embeddingRecords, r.chunkId = c.chunkId → r ∈ T.embeddingRecords

namespace Retired

variable {T T' T'' : Tables}

theorem refl (T : Tables) : T.Retired T := fun _ hc _ => ⟨hc, fun _ hr _ => hr⟩

theorem trans (h : T.Retired T') (h' : T'.Retired T'') : T.Retired T'' := by
  intro c hc hstate
  obtain ⟨hc', hrecords⟩ := h c hc hstate
  obtain ⟨hc'', hrecords'⟩ := h' c hc' hstate
  exact ⟨hc'', fun r hr hid => hrecords r (hrecords' r hr hid) hid⟩

/-- The records are as before, and so are the chunks that are not active. -/
theorem of_chunks (hrecords : T'.embeddingRecords = T.embeddingRecords)
    (hchunks : ∀ c ∈ T.eventChunks, c.lifecycleState ≠ .active → c ∈ T'.eventChunks) :
    T.Retired T' :=
  fun c hc hstate => ⟨hchunks c hc hstate, fun _ hr _ => hrecords ▸ hr⟩

end Retired

variable {T : Tables}

theorem IsActive.ne {id : String} (h : T.IsActive id) {c : EventChunk} (hc : c ∈ T.eventChunks)
    (hstate : c.lifecycleState ≠ .active) : c.chunkId ≠ id := by
  obtain ⟨x, hx, hid, ha⟩ := h
  intro he
  exact hstate (Table.eq_of_key hx hc (hid.trans he.symm) ▸ ha)

/-- A call on active chunks leaves the others alone. -/
theorem retired_effect {c : RepoCall} (hg : c.Guard T) (hp : (Call.repo c).OnActive T) :
    T.Retired (c.effect T) := by
  cases c with
  | getOrCreateSourceMessage s =>
    refine .of_chunks ?_ fun x hx _ => ?_ <;> rw [RepoCall.effect] <;> split
    · rfl
    · rfl
    · exact hx
    · exact hx
  | saveEventChunks cs =>
    exact .of_chunks rfl fun _ hx _ => hg.keeps_chunk hx
  | saveEmbeddingRecords rs =>
    refine fun x hx hstate => ⟨hx, fun r hr hid => ?_⟩
    have hall : ∀ r ∈ T.embeddingRecords.putAll rs, r.chunkId = x.chunkId →
        r ∈ T.embeddingRecords := by
      refine Table.forall_putAll (fun r hr _ => hr) fun r hr hid => ?_
      exact absurd hid.symm ((hp r hr).ne hx hstate)
    exact hall r hr hid
  | setChunkEmbeddingStatus id status =>
    refine .of_chunks rfl fun x hx hstate => mem_setStatus.mpr ⟨x, hx, ?_⟩
    exact (if_neg (IsActive.ne hp hx hstate)).symm
  | markChunk state id community =>
    obtain ⟨-, -, y, hy, hid, -, ha⟩ := hg
    refine .of_chunks rfl fun x hx hstate => mem_markChunk.mpr ⟨x, hx, ?_⟩
    exact (if_neg (IsActive.ne ⟨y, hy, hid, ha⟩ hx hstate)).symm
  | hardDeleteSourceMessage => exact absurd hp id
  | _ => exact .of_chunks rfl fun _ hx _ => hx

end Tables

section Runs

variable {T T' : Tables} {es : List Event}

theorem Event.retired {e : Event} (hserved : e.Served kind) (hp : e.call.OnActive e.before) :
    e.before.Retired e.after := by
  obtain ⟨before, call, raised⟩ := e
  cases call with
  | sys c => exact .refl before
  | repo c =>
    cases raised with
    | true => exact .refl before
    | false => exact Tables.retired_effect hserved.1 hp

/-- What is not active stays as it is through all states of a trace. -/
theorem Trace.retired (h : Trace kind Call.OnActive T es T') :
    (es.map Event.before ++ [T']).Pairwise Tables.Retired := by
  induction h with
  | nil => exact List.pairwise_singleton _ _
  | @snoc es e _ _ hserved hp ih =>
    have hlast := Event.retired hserved hp
    rw [List.map_append, List.map_singleton]
    refine List.pairwise_append.mpr ⟨ih, List.pairwise_singleton _ _, fun T hT T' hT' => ?_⟩
    rw [List.mem_singleton.mp hT']
    rcases List.mem_append.mp hT with hT | hT
    · exact ((List.pairwise_append.mp ih).2.2 T hT _ (List.mem_singleton_self _)).trans hlast
    · rw [List.mem_singleton.mp hT]
      exact hlast

variable {env : Env}

/-- The calls of a run in which every retry finds active chunks. -/
theorem continues_onActive {ops : List Operation} (hops : ∀ o ∈ ops, o.OnRevisions)
    (hfinds : ∀ i (hi : i < ops.length), (ops[i]).FindsActive env
      (runAll (kind.backend engine) env (World.initial kind engine) (ops.take i))) :
    Continues Call.OnActive (World.initial kind engine)
      (runAll (kind.backend engine) env (World.initial kind engine) ops) := by
  induction ops using List.reverseRecOn with
  | nil => exact .refl _
  | append_singleton ops o ih =>
    have hbefore : Continues Call.OnActive (World.initial kind engine)
        (runAll (kind.backend engine) env (World.initial kind engine) ops) := by
      refine ih (fun o' ho' => hops o' (List.mem_append_left _ ho')) fun i hi => ?_
      have h := hfinds i (by rw [List.length_append]; omega)
      rwa [List.getElem_append_left hi, List.take_append_of_le_length hi.le] at h
    have hlast := hfinds ops.length (by simp)
    rw [List.getElem_concat_length rfl, List.take_left] at hlast
    rw [runAll_append]
    exact hbefore.trans (Operation.continues_onActive (sound_run env ops) (hops o (by simp)) hlast)

end Runs

/-- In every run of ingests, deletes and retries, whatever fails, in which each retry finds
active chunks only : what is embedded is the text of active chunks, and a chunk that is not
active stays as it is and gets no record. -/
theorem retired_run (kind : StoreKind) (engine : SearchEngine) (env : Env) (ops : List Operation)
    (hops : ∀ o ∈ ops, o.OnRevisions)
    (hfinds : ∀ i (hi : i < ops.length), (ops[i]).FindsActive env
      (runAll (kind.backend engine) env (World.initial kind engine) (ops.take i))) :
    let w := runAll (kind.backend engine) env (World.initial kind engine) ops
    (∀ e ∈ w.log, ∀ cs, e.call = .sys (.embed cs) → ∀ c ∈ cs, ∃ x ∈ e.before.eventChunks,
      x.chunkId = c.chunkId ∧ x.chunkText = c.chunkText ∧ x.lifecycleState = .active) ∧
    (w.log.map Event.before ++ [w.rows]).Pairwise Tables.Retired := by
  intro w
  obtain ⟨es, hlog, ht⟩ := continues_onActive hops hfinds
  have hes : w.log = es := hlog
  rw [hes]
  refine ⟨fun e he cs hcall => ?_, ht.retired⟩
  have h := ht.promised e he
  rw [hcall] at h
  exact h

theorem retired_run_retried :
    let client : EmbeddingClient := ⟨"model", 1⟩
    let w := runAll (StoreKind.mock.backend .plain) .embedRecovers (World.initial .mock .plain)
      [.ingest ⟨some client⟩ (.plain .note "2026-05-09\nwalk" 0),
        .retry ⟨some client⟩ "community" none,
        .ingest ⟨some client⟩ (.plain .note "2026-05-09\nrun" 1),
        .retry ⟨some client⟩ "community" none, .delete "chat" "message" "community"]
    (∀ e ∈ w.log, ∀ cs, e.call = .sys (.embed cs) → ∀ c ∈ cs, ∃ x ∈ e.before.eventChunks,
      x.chunkId = c.chunkId ∧ x.chunkText = c.chunkText ∧ x.lifecycleState = .active) ∧
    (w.log.map Event.before ++ [w.rows]).Pairwise Tables.Retired :=
  retired_run .mock .plain .embedRecovers _ (by simp [Operation.OnRevisions]) (by decide +kernel)

/-- The note is edited before its failed chunk is embedded, and the retry embeds the chunk and
makes it ready. -/
theorem retry_embeds_superseded :
    let client : EmbeddingClient := ⟨"model", 1⟩
    let w := runAll (StoreKind.mock.backend .plain) .embedRecovers (World.initial .mock .plain)
      [.ingest ⟨some client⟩ (.plain .note "2026-05-09\nwalk" 0),
        .ingest ⟨some client⟩ (.plain .note "2026-05-09\nrun" 1)]
    let v := Operation.run (StoreKind.mock.backend .plain) .embedRecovers w
      (.retry ⟨some client⟩ "community" none)
    (∃ e ∈ v.log, ∃ cs, e.call = .sys (.embed cs) ∧ ∃ c ∈ cs, ∃ x ∈ e.before.eventChunks,
      x.chunkId = c.chunkId ∧ x.lifecycleState = .superseded) ∧ ¬ w.rows.Retired v.rows := by
  intro client w v
  have hchunk : ∃ c ∈ w.rows.eventChunks.rows, c.lifecycleState = .superseded ∧
      (∃ e ∈ v.log, e.call = .sys (.embed [c]) ∧ ∃ x ∈ e.before.eventChunks.rows,
        x.chunkId = c.chunkId ∧ x.lifecycleState = .superseded) ∧
      ¬ c ∈ v.rows.eventChunks.rows := by decide +kernel
  obtain ⟨c, hc, hstate, ⟨e, he, hcall, hx⟩, hgone⟩ := hchunk
  refine ⟨⟨e, he, [c], hcall, c, List.mem_singleton_self c, hx⟩, fun hretired => hgone ?_⟩
  exact (hretired c hc (by rw [hstate]; exact nofun)).1

end DiaryMemory
