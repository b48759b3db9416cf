import DiaryMemory.Durability
import DiaryMemory.SqlConformance
import DiaryMemory.Staging

/-!
# Requests at the same time

The requests of a SQL store are interleaved call by call : between two calls of one request any
calls of others may come, and a call may fail. The guards under which a single request makes its
calls need not hold then, and a state may be marked twice. But the statements check the keys and
the references (`Tables.Sane`), no call puts a row in the place of another one, and no service
makes a row active again : whatever the schedule, rows only disappear with a source row that a
request removes, and a row that was retired stays retired (`requests_interleaved`).
-/

namespace DiaryMemory

/-! ## What rows become -/

/-- The same note, and not active again. -/
def Note.Kept (n n' : Note) : Prop :=
  n.Same n' ∧ (n'.lifecycleState = .active → n.lifecycleState = .active)

/-- The same chunk up to its embedding status, and not active again. -/
def EventChunk.Kept (c c' : EventChunk) : Prop :=
  c.Same c' ∧ (c'.lifecycleState = .active → c.lifecycleState = .active)

theorem Note.Kept.refl (n : Note) : n.Kept n := ⟨.refl n, id⟩

theorem EventChunk.Kept.refl (c : EventChunk) : c.Kept c := ⟨.refl c, id⟩

theorem Note.Kept.trans {n n' n'' : Note} (h : n.Kept n') (h' : n'.Kept n'') : n.Kept n'' :=
  ⟨h.1.trans h'.1, fun ha => h.2 (h'.2 ha)⟩

theorem EventChunk.Kept.trans {c c' c'' : EventChunk} (h : c.Kept c') (h' : c'.Kept c'') :
    c.Kept c'' :=
  ⟨h.1.trans h'.1, fun ha => h.2 (h'.2 ha)⟩

namespace Tables

/-- The references hold, and a message key names one source row. -/
structure Sane (T : Tables) : Prop where
  references : T.References
  keys : (T.sourceMessages.rows.map SourceMessage.messageKey).Nodup

/-- The tables that only grow : what was asked, answered, routed, rewritten and searched, and
what could not be indexed. -/
structure Logged (T T' : Tables) : Prop where
  queries : ∀ q ∈ T.queries, q ∈ T'.queries
  traces : ∀ t ∈ T.answerTraces, t ∈ T'.answerTraces
  decisions : ∀ d ∈ T.chatRouteDecisions, d ∈ T'.chatRouteDecisions
  rewrites : ∀ r ∈ T.chatQueryRewrites, r ∈ T'.chatQueryRewrites
  searches : ∀ s ∈ T.chatKnowledgeSearches, s ∈ T'.chatKnowledgeSearches
  deadLetters : ∀ d ∈ T.indexingDeadLetters, d ∈ T'.indexingDeadLetters

/-- The rows of `T` are kept in `T'`, but for those of removed source rows and the retrieval hits
of their chunks. -/
structure Outlives (removed : String → Prop) (T T' : Tables) : Prop extends Logged T T' where
  sources : ∀ s ∈ T.sourceMessages, s ∈ T'.sourceMessages ∨ removed s.sourceMessageId
  notes : ∀ n ∈ T.notes, (∃ n' ∈ T'.notes, n.Kept n') ∨ removed n.sourceMessageId
  chunks : ∀ c ∈ T.eventChunks, (∃ c' ∈ T'.eventChunks, c.Kept c') ∨ removed c.sourceMessageId
  records : ∀ r ∈ T.embeddingRecords, r ∈ T'.embeddingRecords ∨ removed r.sourceMessageId
  hits : ∀ h ∈ T.retrievalHits, h ∈ T'.retrievalHits ∨
    ∃ c ∈ T.eventChunks, c.chunkId = h.chunkId ∧ removed c.sourceMessageId

/-- Rows that stay sane and outlive the step. -/
structure Advances (removed : String → Prop) (T T' : Tables) : Prop where
  sane : T.Sane → T'.Sane
  outlives : T.Sane → Outlives removed T T'

theorem sane_empty : ({} : Tables).Sane :=
  ⟨Tables.linked_empty.references fun _ h => absurd h Table.not_mem_empty, List.nodup_nil⟩

variable {removed : String → Prop} {T T' T'' : Tables}

theorem Logged.refl (T : Tables) : Logged T T :=
  ⟨fun _ h => h, fun _ h => h, fun _ h => h, fun _ h => h, fun _ h => h, fun _ h => h⟩

theorem Logged.trans (h : Logged T T') (h' : Logged T' T'') : Logged T T'' where
  queries q hq := h'.queries q (h.queries q hq)
  traces t ht := h'.traces t (h.traces t ht)
  decisions d hd := h'.decisions d (h.decisions d hd)
  rewrites r hr := h'.rewrites r (h.rewrites r hr)
  searches s hs := h'.searches s (h.searches s hs)
  deadLetters d hd := h'.deadLetters d (h.deadLetters d hd)

namespace Outlives

theorem refl (T : Tables) : Outlives removed T T where
  __ := Logged.refl T
  sources _ h := .inl h
  notes n h := .inl ⟨n, h, .refl n⟩
  chunks c h := .inl ⟨c, h, .refl c⟩
  records _ h := .inl h
  hits _ h := .inl h

/-- The references make the chunk a hit is removed with the one it named from the start. -/
theorem trans (hT : T.References) (h : Outlives removed T T') (h' : Outlives removed T' T'') :
    Outlives removed T T'' where
  __ := h.toLogged.trans h'.toLogged
  sources s hs := (h.sources s hs).elim (h'.sources s) .inr
  notes := Table.kept_trans .trans (fun hk hr => hk.1.sourceMessageId ▸ hr) h.notes h'.notes
  chunks := Table.kept_trans .trans (fun hk hr => hk.1.sourceMessageId ▸ hr) h.chunks h'.chunks
  records r hr := (h.records r hr).elim (h'.records r) .inr
  hits x hx := by
    rcases h.hits x hx with hx' | hgone
    · rcases h'.hits x hx' with hx'' | ⟨c', hc', hk', hr⟩
      · exact .inl hx''
      · obtain ⟨c, hc, hk⟩ := Table.isSome_find?_iff.mp (hT.hit_chunk x hx)
        refine .inr ⟨c, hc, hk, ?_⟩
        rcases h.chunks c hc with ⟨d, hd, hkept⟩ | hr'
        · have hsame : d = c' :=
            Table.eq_of_key hd hc' (hkept.1.chunkId.trans (hk.trans hk'.symm))
          rw [← hkept.1.sourceMessageId, hsame]
          exact hr
        · exact hr'
    · exact .inr hgone

end Outlives

namespace Advances

theorem refl (T : Tables) : Advances removed T T := ⟨id, fun _ => .refl T⟩

theorem trans (h : Advances removed T T') (h' : Advances removed T' T'') : Advances removed T T'' :=
  ⟨fun hT => h'.sane (h.sane hT),
    fun hT => (h.outlives hT).trans hT.references (h'.outlives (h.sane hT))⟩

/-- A statement that touches no source row. -/
theorem of_references (hr : T'.References) (hs : T'.sourceMessages = T.sourceMessages)
    (h : Outlives removed T T') : Advances removed T T' :=
  ⟨fun hT => ⟨hr, hs ▸ hT.keys⟩, fun _ => h⟩

end Advances

/-! ## Marks -/

theorem isSome_find?_adjust {K V : Type} [DecidableEq K] {key : V → K} {f : V → V}
    (hf : ∀ v, key (f v) = key v) (t : Table key) (k k' : K) :
    ((t.adjust k f).find? k').isSome = (t.find? k').isSome := by
  rw [Table.find?_adjust hf, Option.isSome_map]

theorem References.markNote (h : T.References) (state : LifecycleState) (id : String) :
    (T.markNote state id).References where
  __ := h
  note_source n hn := by
    obtain ⟨m, hm, rfl⟩ := mem_markNote.mp hn
    split
    · exact h.note_source m hm
    · exact h.note_source m hm
  chunk_note c hc := by
    have hfind := @isSome_find?_adjust _ _ _ Note.noteId (Note.withState state) (fun _ => rfl) T.notes
      id c.noteId
    exact hfind.trans (h.chunk_note c hc)

/-- A note is marked, and not active. -/
theorem advances_markNote {state : LifecycleState} (hstate : state ≠ .active) (id : String) :
    Advances removed T (T.markNote state id) where
  sane h := ⟨h.references.markNote state id, h.keys⟩
  outlives _ := by
    refine { Outlives.refl T with notes := fun n hn => .inl ⟨_, mem_markNote.mpr ⟨n, hn, rfl⟩, ?_⟩ }
    split
    · exact ⟨.withState n state, fun ha => absurd ha hstate⟩
    · exact .refl n

theorem References.adjustChunk (h : T.References) {f : EventChunk → EventChunk}
    (hf : ∀ c : EventChunk, c.Same (f c)) (id : String) :
    References { T with eventChunks := T.eventChunks.adjust id f } where
  __ := h
  chunk_note c hc := by
    obtain ⟨d, hd, rfl⟩ := (Table.mem_adjust fun c => (hf c).chunkId).mp hc
    split
    · exact (hf d).noteId ▸ h.chunk_note d hd
    · exact h.chunk_note d hd
  chunk_source c hc := by
    obtain ⟨d, hd, rfl⟩ := (Table.mem_adjust fun c => (hf c).chunkId).mp hc
    split
    · exact (hf d).sourceMessageId ▸ h.chunk_source d hd
    · exact h.chunk_source d hd
  record_chunk r hr :=
    (isSome_find?_adjust (fun c => (hf c).chunkId) ..).trans (h.record_chunk r hr)
  hit_chunk x hx := (isSome_find?_adjust (fun c => (hf c).chunkId) ..).trans (h.hit_chunk x hx)

/-- A chunk is updated to one that it is kept as. -/
theorem advances_adjustChunk (f : EventChunk → EventChunk)
    (hf : ∀ c : EventChunk, c.Kept (f c)) (id : String) :
    Advances removed T { T with eventChunks := T.eventChunks.adjust id f } where
  sane h := ⟨h.references.adjustChunk (fun c => (hf c).1) id, h.keys⟩
  outlives _ := by
    refine { Outlives.refl T with
      chunks := fun c hc => .inl
        ⟨_, (Table.mem_adjust fun c => (hf c).1.chunkId).mpr ⟨c, hc, rfl⟩, ?_⟩ }
    split
    · exact hf c
    · exact .refl c

/-! ## Removals -/

section Removals

variable {id : String} (h : removed id)
include h

theorem outlives_dropHits : Outlives removed T (T.dropHits id) where
  __ := Outlives.refl T
  hits x hx := Table.mem_discard_or hx fun hof => by
    obtain ⟨c, hc, hk, hid⟩ := chunkIsOf_iff.mp hof
    exact ⟨c, hc, hk, hid ▸ h⟩

theorem outlives_dropRecords : Outlives removed T (T.dropRecords id) where
  __ := Outlives.refl T
  records _ hr := Table.mem_discard_or hr fun hid => of_decide_eq_true hid ▸ h

theorem outlives_dropChunks : Outlives removed T (T.dropChunks id) where
  __ := Outlives.refl T
  chunks c hc := (Table.mem_discard_or hc fun hid => of_decide_eq_true hid ▸ h).imp_left
    fun hc => ⟨c, hc, .refl c⟩

theorem outlives_dropNotes : Outlives removed T (T.dropNotes id) where
  __ := Outlives.refl T
  notes n hn := (Table.mem_discard_or hn fun hid => of_decide_eq_true hid ▸ h).imp_left
    fun hn => ⟨n, hn, .refl n⟩

theorem outlives_dropOwnedSource (community : String) :
    Outlives removed T (SqlDomainStore.dropOwnedSource id community T) where
  __ := Outlives.refl T
  sources _ hs := Table.mem_discard_or hs fun hid => (of_decide_eq_true hid).1 ▸ h

end Removals

end Tables

/-! ## One call -/

namespace SqlDomainStore

variable {dialect : SqlDialect} {engine : SearchEngine} {removed : String → Prop} {T T' : Tables}

open Tables

/-- What a statement that did not raise leaves. -/
theorem statement_eq_ok {change : Tables → Tables} (h : statement dialect change T = .ok T') :
    T' = change T ∧ (change T).References := by
  rw [statement] at h
  split at h
  · next hr => exact ⟨(Except.ok.inj h).symm, hr⟩
  · cases h

theorem statement_bind_eq_ok {α : Type} {change : Tables → Tables} {f : Tables → Except Exn α} {a : α}
    (h : statement dialect change T >>= f = .ok a) :
    (change T).References ∧ f (change T) = .ok a := by
  cases hs : statement dialect change T with
  | error e =>
    rw [hs] at h
    cases h
  | ok T' =>
    obtain ⟨rfl, hr⟩ := statement_eq_ok hs
    rw [hs] at h
    exact ⟨hr, h⟩

theorem advances_statement {change : Tables → Tables}
    (hs : (change T).sourceMessages = T.sourceMessages) (ho : Outlives removed T (change T))
    (h : statement dialect change T = .ok T') : Advances removed T T' := by
  obtain ⟨rfl, hr⟩ := statement_eq_ok h
  exact .of_references hr hs ho

theorem advances_insert {conflict : Prop} [Decidable conflict] {change : Tables → Tables}
    (hs : (change T).sourceMessages = T.sourceMessages)
    (ho : ¬ conflict → Outlives removed T (change T))
    (h : SqlDomainStore.insert dialect conflict change T = .ok T') : Advances removed T T' := by
  rw [SqlDomainStore.insert] at h
  split at h
  · cases h
  · next hc => exact advances_statement hs (ho hc) h

theorem advances_insertMany {α : Type} {one : α → Tables → Except Exn Tables}
    (hone : ∀ a T T', one a T = .ok T' → Advances removed T T') :
    ∀ {as : List α} {T T' : Tables}, insertMany one as T = .ok T' → Advances removed T T'
  | [], T, _, h => by
    cases h
    exact .refl T
  | a :: as, T, T', h => by
    rw [insertMany] at h
    cases hfirst : one a T with
    | error e =>
      rw [hfirst] at h
      cases h
    | ok T₁ =>
      rw [hfirst] at h
      exact (hone a T T₁ hfirst).trans (advances_insertMany hone h)

/-- A refused write leaves the rows alone. -/
theorem advances_writing {r : Except Exn Tables} (h : ∀ T', r = .ok T' → Advances removed T T') :
    Advances removed T (writing T r).2 := by
  cases r with
  | error e => exact .refl T
  | ok T' => exact h T' rfl

/-- A row is inserted next to those that are there. -/
theorem subset_put {K V : Type} [DecidableEq K] {key : V → K} {t : Table key} {v : V}
    (hnew : ¬ (t.find? (key v)).isSome) : ∀ x ∈ t, x ∈ t.put v := fun x hx =>
  Table.mem_put_of_ne hx (Table.find?_eq_none_iff.mp (Option.not_isSome_iff_eq_none.mp hnew) x hx)

theorem subset_put_of_or {K V : Type} [DecidableEq K] {key : V → K} {t : Table key} {v : V}
    {other : Prop} (hnew : ¬ ((t.find? (key v)).isSome ∨ other)) : ∀ x ∈ t, x ∈ t.put v :=
  subset_put fun hfound => hnew (.inl hfound)

theorem advances_getOrCreate (source : SourceMessage) :
    Advances removed T (returning T (getOrCreateSourceMessage dialect source T)).2 := by
  unfold getOrCreateSourceMessage
  split
  · exact .refl T
  · next hkey hid =>
    have hfresh := Table.find?_eq_none_iff.mp hid
    refine ⟨fun h => ⟨?_, ?_⟩, fun _ => ?_⟩
    · have hsources : ∀ id, (T.sourceMessages.find? id).isSome →
          ((T.sourceMessages.put source).find? id).isSome := fun id hid =>
        Table.isSome_find?_iff.mpr (Table.exists_put (Table.isSome_find?_iff.mp hid))
      exact { h.references with
        note_source := fun n hn => hsources _ (h.references.note_source n hn)
        chunk_source := fun c hc => hsources _ (h.references.chunk_source c hc)
        record_source := fun r hr => hsources _ (h.references.record_source r hr)
        deadLetter_source := fun d hd => hsources _ (h.references.deadLetter_source d hd) }
    · change ((T.sourceMessages.put source).rows.map SourceMessage.messageKey).Nodup
      rw [Table.rows_put_of_fresh hfresh, List.map_append]
      refine List.nodup_append.mpr ⟨h.keys, List.nodup_singleton _, fun a ha b hb => ?_⟩
      obtain ⟨s, hs, rfl⟩ := List.mem_map.mp ha
      rw [List.mem_singleton.mp hb]
      exact sourceForKey_eq_none.mp hkey s hs
    · exact { Outlives.refl T with
        sources := fun s hs => .inl (Table.mem_put_of_ne hs (hfresh s hs)) }
  · exact .refl T
  · exact .refl T

/-- The statements of a hard delete, one after the other. -/
theorem advances_hardDelete {id : String} (hid : removed id) (community : String) :
    Advances removed T (returning T (hardDeleteSourceMessage dialect id community T)).2 := by
  cases h : hardDeleteSourceMessage dialect id community T with
  | error e => exact .refl T
  | ok r =>
    rw [hardDeleteSourceMessage, requireCommunity_bind] at h
    split at h
    · cases h
    · split at h
      · cases h
      · obtain ⟨hhits, h⟩ := statement_bind_eq_ok h
        obtain ⟨hrecords, h⟩ := statement_bind_eq_ok h
        obtain ⟨hchunks, h⟩ := statement_bind_eq_ok h
        obtain ⟨hnotes, h⟩ := statement_bind_eq_ok h
        obtain ⟨hsource, h⟩ := statement_bind_eq_ok h
        cases h
        refine ⟨fun hT => ⟨hsource, ?_⟩, fun hT => ?_⟩
        · exact hT.keys.sublist (List.filter_sublist.map _)
        · have hT := hT.references
          exact ((((outlives_dropHits hid).trans hT (outlives_dropRecords hid)).trans hT
            (outlives_dropChunks hid)).trans hT (outlives_dropNotes hid)).trans hT
            (outlives_dropOwnedSource hid community)

/-- Every call a service may make keeps the rows sane, and rows outlive it. -/
theorem advances_handle {c : RepoCall} (hc : c.Tame removed) :
    Advances removed T (handle dialect engine c T).2 := by
  cases c with
  | getOrCreateSourceMessage source => exact advances_getOrCreate source
  | saveNote note =>
    exact advances_writing fun T' => advances_insert rfl fun hnew =>
      { Outlives.refl T with notes := fun n hn => .inl ⟨n, subset_put hnew n hn, .refl n⟩ }
  | saveEventChunks chunks =>
    exact advances_writing fun T' => advances_insertMany fun c T T' => advances_insert rfl fun hnew =>
      { Outlives.refl T with chunks := fun d hd => .inl ⟨d, subset_put hnew d hd, .refl d⟩ }
  | saveEmbeddingRecords records =>
    exact advances_writing fun T' => advances_insertMany fun r T T' => advances_insert rfl fun hnew =>
      { Outlives.refl T with records := fun s hs => .inl (subset_put_of_or hnew s hs) }
  | setChunkEmbeddingStatus id status =>
    refine advances_writing fun T' h => ?_
    rw [setChunkEmbeddingStatus] at h
    split at h
    · cases h
    · cases h
      exact advances_adjustChunk (EventChunk.withStatus status) (fun c => ⟨.withStatus c status,
        fun ha => ha⟩) id
  | markNote state id community =>
    refine advances_writing fun T' h => ?_
    rw [markNote, requireCommunity_bind] at h
    split at h
    · cases h
    · split at h
      · cases h
      · cases h
        exact advances_markNote hc id
  | markChunk state id community =>
    refine advances_writing fun T' h => ?_
    rw [markChunk, requireCommunity_bind] at h
    split at h
    · cases h
    · split at h
      · cases h
      · cases h
        exact advances_adjustChunk (EventChunk.withState state)
          (fun c => ⟨.withState c state, fun ha => absurd ha hc⟩) id
  | hardDeleteSourceMessage id community => exact advances_hardDelete hc community
  | saveRetrievalHits hits =>
    exact advances_writing fun T' => advances_insertMany fun x T T' => advances_insert rfl fun hnew =>
      { Outlives.refl T with hits := fun y hy => .inl (subset_put_of_or hnew y hy) }
  | saveQuery query =>
    exact advances_writing fun T' => advances_insert rfl fun hnew =>
      { Outlives.refl T with queries := subset_put hnew }
  | saveAnswerTrace trace =>
    exact advances_writing fun T' => advances_insert rfl fun hnew =>
      { Outlives.refl T with traces := subset_put_of_or hnew }
  | saveChatRouteDecision decision =>
    exact advances_writing fun T' => advances_insert rfl fun hnew =>
      { Outlives.refl T with decisions := subset_put hnew }
  | saveChatQueryRewrite rewrite =>
    exact advances_writing fun T' => advances_insert rfl fun hnew =>
      { Outlives.refl T with rewrites := subset_put_of_or hnew }
  | saveChatKnowledgeSearch search =>
    exact advances_writing fun T' => advances_insert rfl fun hnew =>
      { Outlives.refl T with searches := subset_put_of_or hnew }
  | saveIndexingDeadLetter record =>
    exact advances_writing fun T' => advances_insert rfl fun hnew =>
      { Outlives.refl T with deadLetters := subset_put hnew }
  | _ => exact .refl T

end SqlDomainStore

/-! ## Schedules -/

/-- The calls of a procedure, without its result. -/
def Proc.calls {α : Type} (p : Proc α) : Prog Call Reply Unit := p.run.bind fun _ => .ret ()

theorem Proc.run_calls {α : Type} (B : Backend) (env : Env) (w : World B.State) (p : Proc α) :
    (p.calls.run (serve B env) w).2 = (p.exec B env w).2 :=
  congrArg Prod.snd (Prog.run_bind (serve B env) p.run (fun _ => Prog.ret ()) w)

namespace Operation

def prog : Operation → Prog Call Reply Unit
  | ingest service message => (service.ingest message).calls
  | delete externalChat target community =>
    (DomainService.deleteNoteForExternalMessage externalChat target community).calls
  | retry service community limit => (service.retryFailedChunks community limit).calls
  | hardDelete id community => (DomainService.hardDeleteSourceMessage id community).calls
  | ask service message dateRange subjectScope =>
    (service.answer message dateRange subjectScope).calls
  | chat service message subjectScope => (service.chat message subjectScope).calls
  | dispatch dispatcher message => (dispatcher.dispatch message).calls

/-- Served alone, a request leaves the world its run leaves. -/
theorem run_prog (B : Backend) (env : Env) (w : World B.State) (o : Operation) :
    (o.prog.run (serve B env) w).2 = o.run B env w := by
  cases o <;> exact Proc.run_calls B env w _

/-- A request keeps to the conduct of the services, and removes the source row it names. -/
theorem within_prog (removable : String → Prop) (o : Operation)
    (h : ∀ id community, o = .hardDelete id community → removable id) :
    o.prog.wp (services removable).unstaged.contract (fun _ n => n ≤ 0) 0 := by
  have hcalls : ∀ {α : Type} {p : Proc α}, (services removable).unstaged.Within 0 0 p →
      p.calls.wp (services removable).unstaged.contract (fun _ n => n ≤ 0) 0 := fun hp =>
    (Prog.wp_prog_bind _ _ _ _).mpr hp.keeps
  cases o with
  | ingest service message => exact hcalls (Within.ingest service message).unstaged
  | delete chat target community =>
    exact hcalls (Within.delete (n := 0) chat target community).unstaged
  | retry service community limit => exact hcalls (Within.retry service community limit)
  | hardDelete id community =>
    have htame : (RepoCall.hardDeleteSourceMessage id community).Tame removable := h id community rfl
    exact hcalls (Within.repo (n := 0) htame).unstaged
  | ask service message dateRange subjectScope =>
    exact hcalls (Within.answer service message dateRange subjectScope).unstaged
  | chat service message subjectScope =>
    exact hcalls (Within.chat service message subjectScope).unstaged
  | dispatch dispatcher message => exact hcalls (Within.dispatch dispatcher message).unstaged

end Operation

section Schedules

variable {dialect : SqlDialect} {engine : SearchEngine} {env : Env} {removed : String → Prop}

/-- A call of a service, served or failing. -/
theorem advances_serve {c : Call} (hc : (services removed).allows c)
    (w : World ((StoreKind.sql dialect).backend engine).State) :
    Tables.Advances removed w.rows
      (serve ((StoreKind.sql dialect).backend engine) env c w).2.rows := by
  cases c with
  | sys c => cases c <;> exact .refl _
  | repo c =>
    simp only [serve, respond, serveRepo]
    cases env.storeFails w.tick c with
    | some e => exact .refl _
    | none => exact SqlDomainStore.advances_handle hc

/-- Requests of a SQL store under any schedule of their calls, any of which may fail : the rows
stay sane, and what is there at some moment is there later, not active again once it was retired,
unless a request removes its source row. -/
theorem requests_interleaved {ι : Type} [DecidableEq ι] (dialect : SqlDialect)
    (engine : SearchEngine) (env : Env) (ops : ι → Operation) (schedule later : List ι) :
    let B := (StoreKind.sql dialect).backend engine
    let p : Pool ι Call Reply Unit (World B.State) :=
      ⟨World.initial (.sql dialect) engine, fun i => (ops i).prog⟩
    let w := (p.run (serve B env) schedule).state
    let w' := (p.run (serve B env) (schedule ++ later)).state
    w.rows.Sane ∧
      w.rows.Outlives (fun id => ∃ i community, ops i = .hardDelete id community) w'.rows := by
  intro B p w w'
  let removed (id : String) : Prop := ∃ i community, ops i = .hardDelete id community
  have hprogs : ∀ i, (p.progs i).wp (services removed).unstaged.contract (fun _ n => n ≤ 0)
      ((fun _ => 0 : ι → ℕ) i) := fun i =>
    (ops i).within_prog removed fun id community h => ⟨i, community, h⟩
  have hsane : ∀ c (v : World B.State), (services removed).unstaged.allows c → v.rows.Sane →
      (serve B env c v).2.rows.Sane := fun c v hc h => (advances_serve hc v).sane h
  obtain ⟨g, hwithin, hw⟩ := Pool.run_of_within hsane schedule hprogs
    (show p.state.rows.Sane from Tables.sane_empty)
  have hkept : ∀ c (v : World B.State), (services removed).unstaged.allows c →
      v.rows.Sane ∧ w.rows.Outlives removed v.rows →
      (serve B env c v).2.rows.Sane ∧ w.rows.Outlives removed (serve B env c v).2.rows := by
    rintro c v hc ⟨hv, ho⟩
    exact ⟨(advances_serve hc v).sane hv,
      ho.trans hw.references ((advances_serve hc v).outlives hv)⟩
  obtain ⟨-, -, -, hlast⟩ := Pool.run_of_within hkept later hwithin ⟨hw, .refl _⟩
  rw [← Pool.run_append] at hlast
  exact ⟨hw, hlast⟩

end Schedules

end DiaryMemory
