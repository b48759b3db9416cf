import DiaryMemory.Concurrency
import DiaryMemory.Pact
import DiaryMemory.Parsing

/-!
# What the services read was said

The services write source rows for the messages they are given, and chunks that hold the body of
such a message (`SourceMessage.Of`, `EventChunk.Of`), both of the community of the message. So
what a read of a community returns was said in that community, whatever other requests do
meanwhile. `exchange` is this pact between the services and the system, which the three stores
honour (`honours_serve`), and `ensures_dispatch` is what follows for the result of a message.
-/

namespace DiaryMemory

open Pact

/-! ## Rows of messages -/

section Rows

variable (said : InboundMessage → Prop)

/-- The source row of a message. -/
def SourceMessage.Of (s : SourceMessage) : Prop :=
  ∃ m, said m ∧ ∃ id now, s = DomainService.sourceRow m id now

/-- A chunk with the date and the body of a message. -/
def EventChunk.Of (c : EventChunk) : Prop :=
  ∃ m, said m ∧ c.communityId = m.communityId ∧ c.authorUserId = m.externalUserId ∧
    ∃ parsed, parseNote m.payload = some parsed ∧ c.noteDate = parsed.noteDate ∧
      c.chunkText = parsed.body

variable {said}

theorem EventChunk.Of.same {c c' : EventChunk} (h : c.Of said) (hsame : c.Same c') :
    c'.Of said := by
  have hauthor : c'.authorUserId = c.authorUserId := (congrArg EventChunk.authorUserId hsame :)
  have hdate : c'.noteDate = c.noteDate := (congrArg EventChunk.noteDate hsame :)
  have htext : c'.chunkText = c.chunkText := (congrArg EventChunk.chunkText hsame :)
  unfold EventChunk.Of
  rwa [hsame.communityId, hauthor, hdate, htext]

end Rows

/-- The source rows and chunks of messages. -/
structure Tables.Said (said : InboundMessage → Prop) (T : Tables) : Prop where
  sources : ∀ s ∈ T.sourceMessages, s.Of said
  chunks : ∀ c ∈ T.eventChunks, c.Of said

/-- The rows a call brings are those of messages. -/
def RepoCall.Brings (said : InboundMessage → Prop) : RepoCall → Prop
  | getOrCreateSourceMessage s => s.Of said
  | saveEventChunks cs => ∀ c ∈ cs, c.Of said
  | _ => True

namespace Tables.Said

variable {said : InboundMessage → Prop} {T T' : Tables}

theorem of_subset (h : T.Said said) (hs : ∀ s ∈ T'.sourceMessages, s ∈ T.sourceMessages)
    (hc : ∀ c ∈ T'.eventChunks, c ∈ T.eventChunks) : T'.Said said :=
  ⟨fun s hm => h.sources s (hs s hm), fun c hm => h.chunks c (hc c hm)⟩

theorem of_eq (h : T.Said said) (hs : T'.sourceMessages = T.sourceMessages)
    (hc : T'.eventChunks = T.eventChunks) : T'.Said said :=
  h.of_subset (fun _ hm => hs ▸ hm) fun _ hm => hc ▸ hm

theorem putSource (h : T.Said said) {s : SourceMessage} (hs : s.Of said) :
    (T.putSource s).Said said :=
  ⟨Table.forall_put h.sources hs, h.chunks⟩

theorem putChunk (h : T.Said said) {c : EventChunk} (hc : c.Of said) : (T.putChunk c).Said said :=
  ⟨h.sources, Table.forall_put h.chunks hc⟩

/-- A chunk is updated in its state or status. -/
theorem adjustChunk (h : T.Said said) {f : EventChunk → EventChunk}
    (hf : ∀ c : EventChunk, c.Same (f c)) (id : String) :
    Tables.Said said { T with eventChunks := T.eventChunks.adjust id f } := by
  refine ⟨h.sources, fun c hc => ?_⟩
  obtain ⟨d, hd, rfl⟩ := (Table.mem_adjust fun c => (hf c).chunkId).mp hc
  split
  · exact (h.chunks d hd).same (hf d)
  · exact h.chunks d hd

end Tables.Said

/-! ## The SQL stores -/

namespace SqlDomainStore

variable {dialect : SqlDialect} {engine : SearchEngine} {said : InboundMessage → Prop}
  {T T' : Tables} {I : Tables → Prop}

theorem keeps_insert {conflict : Prop} [Decidable conflict] {change : Tables → Tables}
    (hI : I (change T)) (h : SqlDomainStore.insert dialect conflict change T = .ok T') : I T' := by
  rw [SqlDomainStore.insert] at h
  split at h
  · cases h
  · rwa [(statement_eq_ok h).1]

theorem keeps_insertMany {α : Type} {one : α → Tables → Except Exn Tables} : ∀ {as : List α}
    {T T' : Tables}, (∀ a ∈ as, ∀ T T', I T → one a T = .ok T' → I T') → I T →
      insertMany one as T = .ok T' → I T'
  | [], _, _, _, hI, h => by
    cases h
    exact hI
  | a :: as, T, T', hone, hI, h => by
    obtain ⟨T₁, hfirst, hrest⟩ := ok_of_bind h
    exact keeps_insertMany (fun b hb => hone b (List.mem_cons_of_mem a hb))
      (hone a List.mem_cons_self T T₁ hI hfirst) hrest

theorem keeps_writing {r : Except Exn Tables} (hI : I T) (h : ∀ T', r = .ok T' → I T') :
    I (writing T r).2 := by
  cases r with
  | error e => exact hI
  | ok T' => exact h T' rfl

theorem said_hardDelete (h : T.Said said) (id community : String) :
    (returning T (hardDeleteSourceMessage dialect id community T)).2.Said said := by
  cases hr : hardDeleteSourceMessage dialect id community T with
  | error e => exact h
  | ok r =>
    rw [hardDeleteSourceMessage, requireCommunity_bind] at hr
    split at hr
    · cases hr
    split at hr
    · cases hr
    obtain ⟨-, hr⟩ := statement_bind_eq_ok hr
    obtain ⟨-, hr⟩ := statement_bind_eq_ok hr
    obtain ⟨-, hr⟩ := statement_bind_eq_ok hr
    obtain ⟨-, hr⟩ := statement_bind_eq_ok hr
    obtain ⟨-, hr⟩ := statement_bind_eq_ok hr
    cases hr
    exact h.of_subset (fun s hs => (Table.mem_discard.mp hs).1)
      fun c hc => (Table.mem_discard.mp hc).1

theorem said_handle {c : RepoCall} (hc : c.Brings said) (h : T.Said said) :
    (handle dialect engine c T).2.Said said := by
  cases c with
  | getOrCreateSourceMessage source =>
    simp only [handle, getOrCreateSourceMessage]
    split
    · exact h
    · exact h.putSource hc
    · exact h
    · exact h
  | saveNote note => exact keeps_writing h fun T' => keeps_insert (h.of_eq rfl rfl)
  | saveEventChunks chunks =>
    exact keeps_writing h fun T' => keeps_insertMany
      (fun x hx T T' hT => keeps_insert (hT.putChunk (hc x hx))) h
  | saveEmbeddingRecords records =>
    exact keeps_writing h fun T' => keeps_insertMany
      (fun x hx T T' hT => keeps_insert (hT.of_eq rfl rfl)) h
  | saveRetrievalHits hits =>
    exact keeps_writing h fun T' => keeps_insertMany
      (fun x hx T T' hT => keeps_insert (hT.of_eq rfl rfl)) h
  | setChunkEmbeddingStatus id status =>
    refine keeps_writing h fun T' hr => ?_
    rw [setChunkEmbeddingStatus] at hr
    split at hr
    · cases hr
    · cases hr
      exact h.adjustChunk (f := EventChunk.withStatus status) (fun c => .withStatus c status) id
  | markNote state id community =>
    refine keeps_writing h fun T' hr => ?_
    rw [markNote, requireCommunity_bind] at hr
    split at hr
    · cases hr
    split at hr
    · cases hr
    · cases hr
      exact h.of_eq rfl rfl
  | markChunk state id community =>
    refine keeps_writing h fun T' hr => ?_
    rw [markChunk, requireCommunity_bind] at hr
    split at hr
    · cases hr
    split at hr
    · cases hr
    · cases hr
      exact h.adjustChunk (f := EventChunk.withState state) (fun c => .withState c state) id
  | hardDeleteSourceMessage id community => exact said_hardDelete h id community
  | saveQuery | saveAnswerTrace | saveChatRouteDecision =>
    exact keeps_writing h fun T' => keeps_insert (h.of_eq rfl rfl)
  | saveChatQueryRewrite | saveChatKnowledgeSearch | saveIndexingDeadLetter =>
    exact keeps_writing h fun T' => keeps_insert (h.of_eq rfl rfl)
  | _ => exact h

end SqlDomainStore

/-! ## The in-memory store -/

namespace MockDomainStore

variable {engine : SearchEngine} {said : InboundMessage → Prop} {s s' : MockDomainStore}

theorem said_writing {r : Except Exn MockDomainStore} (h : s.toTables.Said said)
    (hr : ∀ s', r = .ok s' → s'.toTables.Said said) : (writing s r).2.toTables.Said said := by
  cases r with
  | error e => exact h
  | ok s' => exact hr s' rfl

/-- A write to another table. -/
theorem said_insertNew {K V : Type} [DecidableEq K] {key : V → K} {message : V → String}
    {t : Table key} {v : V} {f : Table key → Except Exn MockDomainStore} (h : s.toTables.Said said)
    (hf : ∀ t s', f t = .ok s' → s'.sourceMessages = s.sourceMessages ∧
      s'.eventChunks = s.eventChunks) :
    (writing s (insertNew message t v >>= f)).2.toTables.Said said := by
  refine said_writing h fun s' hr => ?_
  obtain ⟨t', -, hr⟩ := ok_of_bind hr
  obtain ⟨hs, hc⟩ := hf t' s' hr
  exact h.of_eq hs hc

theorem said_handle {c : RepoCall} (hc : c.Brings said) (h : s.toTables.Said said) :
    (handle engine c s).2.toTables.Said said := by
  cases c with
  | getOrCreateSourceMessage source =>
    simp only [handle, getOrCreateSourceMessage]
    split
    · split
      · exact h
      · exact h
    · exact h.putSource hc
  | saveNote note => exact h.of_eq rfl rfl
  | saveEventChunks chunks => exact ⟨h.sources, Table.forall_putAll h.chunks hc⟩
  | saveEmbeddingRecords | saveRetrievalHits => exact h.of_eq rfl rfl
  | setChunkEmbeddingStatus id status =>
    refine said_writing h fun s' hr => ?_
    rw [setChunkEmbeddingStatus] at hr
    split at hr
    · cases hr
    · cases hr
      exact h.adjustChunk (f := EventChunk.withStatus status) (fun c => .withStatus c status) id
  | markNote state id community =>
    refine said_writing h fun s' hr => ?_
    rw [markNote, requireCommunity_bind] at hr
    split at hr
    · cases hr
    split at hr
    · cases hr
    · cases hr
      exact h.of_eq rfl rfl
  | markChunk state id community =>
    refine said_writing h fun s' hr => ?_
    rw [markChunk, requireCommunity_bind] at hr
    split at hr
    · cases hr
    split at hr
    · cases hr
    · cases hr
      exact h.adjustChunk (f := EventChunk.withState state) (fun c => .withState c state) id
  | hardDeleteSourceMessage id community =>
    simp only [handle]
    cases hr : s.hardDeleteSourceMessage id community with
    | error e => exact h
    | ok r =>
      rw [hardDeleteSourceMessage, requireCommunity_bind] at hr
      split at hr
      · cases hr
      split at hr
      · cases hr
      · cases hr
        exact h.of_subset (fun s hs => (Table.mem_discard.mp hs).1)
          fun c hc => (Table.mem_discard.mp hc).1
  | saveQuery | saveAnswerTrace | saveChatRouteDecision | saveIndexingDeadLetter =>
    refine said_insertNew h fun t s' hr => ?_
    cases hr
    exact ⟨rfl, rfl⟩
  | saveChatQueryRewrite rewrite =>
    refine said_insertNew h fun t s' hr => ?_
    obtain ⟨-, -, hr⟩ := ok_of_bind hr
    cases hr
    exact ⟨rfl, rfl⟩
  | saveChatKnowledgeSearch search =>
    refine said_insertNew h fun t s' hr => ?_
    obtain ⟨-, -, hr⟩ := ok_of_bind hr
    cases hr
    exact ⟨rfl, rfl⟩
  | _ => exact h

end MockDomainStore

/-! ## Reads -/

section Reads

variable {engine : SearchEngine} {queryEmbedding : Vec} {modelName queryText : String}
  {scope : SearchScope} {found : List EventChunk} {dialect : SqlDialect} {T : Tables}

theorem communityId_of_chunkInScope {c : EventChunk} (h : chunkInScope scope c = true) :
    c.communityId = scope.community := by
  simp only [chunkInScope, Bool.and_eq_true, decide_eq_true_eq] at h
  exact h.1.1.1

theorem MockDomainStore.mem_denseCandidates {store : MockDomainStore}
    (h : store.denseCandidates engine queryEmbedding modelName scope = .ok found) :
    ∀ c ∈ found, c ∈ store.eventChunks ∧ c.communityId = scope.community := by
  rw [denseCandidates, requireCommunity_bind] at h
  split at h
  · cases h
  split at h
  · cases h
    simp
  obtain ⟨ranked, hranked, h⟩ := ok_of_bind h
  cases h
  intro c hc
  obtain ⟨x, hx, rfl⟩ := List.mem_map.mp hc
  have hmem := mem_oldestFirst.mp (List.mem_of_mem_take hx)
  have hrow := (of_denseRanked hranked).1.subset (List.mem_map_of_mem hmem)
  obtain ⟨hrow, hin⟩ := List.mem_filter.mp hrow
  exact ⟨List.fst_mem_of_mem_zipIdx hrow,
    communityId_of_chunkInScope (Bool.and_eq_true_iff.mp hin).1⟩

theorem MockDomainStore.mem_sparseCandidates {store : MockDomainStore}
    (h : store.sparseCandidates engine queryText scope = .ok found) :
    ∀ c ∈ found, c ∈ store.eventChunks ∧ c.communityId = scope.community := by
  rw [sparseCandidates, requireCommunity_bind] at h
  split at h
  · cases h
  split at h
  · cases h
    simp
  cases h
  intro c hc
  obtain ⟨x, hx, rfl⟩ := List.mem_map.mp hc
  obtain ⟨hrow, hin⟩ := List.mem_filter.mp (mem_oldestFirst.mp (List.mem_of_mem_take hx))
  exact ⟨List.fst_mem_of_mem_zipIdx hrow,
    communityId_of_chunkInScope (Bool.and_eq_true_iff.mp hin).1⟩

theorem SqlDomainStore.mem_denseCandidates
    (h : denseCandidates dialect engine queryEmbedding modelName scope T = .ok found) :
    ∀ c ∈ found, c ∈ T.eventChunks ∧ c.communityId = scope.community := by
  cases dialect with
  | sqlite => cases h
  | postgres =>
    rw [denseCandidates, requireCommunity_bind] at h
    split at h
    · cases h
    split at h
    · cases h
      simp
    cases h
    intro c hc
    obtain ⟨x, hx, rfl⟩ := List.mem_map.mp hc
    obtain ⟨hrow, hin⟩ := List.mem_filter.mp (mem_oldestFirst.mp (List.mem_of_mem_take hx))
    obtain ⟨c, hmem, hjoined⟩ := List.mem_filterMap.mp hrow
    obtain ⟨r, -, rfl⟩ := Option.map_eq_some_iff.mp hjoined
    exact ⟨hmem, communityId_of_chunkInScope (Bool.and_eq_true_iff.mp hin).1⟩

theorem SqlDomainStore.mem_sparseCandidates
    (h : sparseCandidates dialect engine queryText scope T = .ok found) :
    ∀ c ∈ found, c ∈ T.eventChunks ∧ c.communityId = scope.community := by
  cases dialect with
  | sqlite => cases h
  | postgres =>
    rw [sparseCandidates, requireCommunity_bind] at h
    split at h
    · cases h
    split at h
    · cases h
      simp
    cases h
    intro c hc
    obtain ⟨hrow, hin⟩ := List.mem_filter.mp (mem_oldestFirst.mp (List.mem_of_mem_take hc))
    exact ⟨hrow, communityId_of_chunkInScope (Bool.and_eq_true_iff.mp hin).1⟩

theorem Tables.mem_listSourceMessages {community : String} {limit : Option Int} {s : SourceMessage}
    (h : s ∈ T.listSourceMessages community limit) :
    s ∈ T.sourceMessages ∧ s.communityId = community := by
  obtain ⟨hrow, hin⟩ := List.mem_filter.mp (mem_oldestFirst.mp (mem_of_mem_takeLimit h))
  exact ⟨hrow, of_decide_eq_true hin⟩

theorem Tables.mem_listRecentDrafts {community : String} {limit : Int} {s : SourceMessage}
    (h : s ∈ T.listRecentDrafts community limit) :
    s ∈ T.sourceMessages ∧ s.communityId = community := by
  obtain ⟨hrow, hin⟩ := List.mem_filter.mp (mem_newestFirst.mp (mem_of_mem_takeLimit h))
  exact ⟨hrow, (of_decide_eq_true hin).1⟩

theorem MockDomainStore.mem_listSourceMessages {store : MockDomainStore} {community : String}
    {limit : Option Int} {rows : List SourceMessage}
    (h : store.listSourceMessages community limit = .ok rows) :
    ∀ s ∈ rows, s ∈ store.sourceMessages ∧ s.communityId = community := by
  rw [listSourceMessages, requireCommunity_bind] at h
  split at h
  · cases h
  split at h
  · cases h
  · cases h
    exact fun s hs => Tables.mem_listSourceMessages hs

theorem MockDomainStore.mem_listRecentDrafts {store : MockDomainStore} {community : String}
    {limit : Int} {rows : List SourceMessage}
    (h : store.listRecentDrafts community limit = .ok rows) :
    ∀ s ∈ rows, s ∈ store.sourceMessages ∧ s.communityId = community := by
  rw [listRecentDrafts, requireCommunity_bind] at h
  split at h
  · cases h
  split at h
  · cases h
  · cases h
    exact fun s hs => Tables.mem_listRecentDrafts hs

theorem SqlDomainStore.mem_listSourceMessages {community : String} {limit : Option Int}
    {rows : List SourceMessage} (h : listSourceMessages dialect community limit T = .ok rows) :
    ∀ s ∈ rows, s ∈ T.sourceMessages ∧ s.communityId = community := by
  cases dialect with
  | sqlite => cases h
  | postgres =>
    rw [listSourceMessages, requireCommunity_bind] at h
    split at h
    · cases h
    split at h
    · cases h
    · cases h
      exact fun s hs => Tables.mem_listSourceMessages hs

theorem SqlDomainStore.mem_listRecentDrafts {community : String} {limit : Int}
    {rows : List SourceMessage} (h : listRecentDrafts dialect community limit T = .ok rows) :
    ∀ s ∈ rows, s ∈ T.sourceMessages ∧ s.communityId = community := by
  cases dialect with
  | sqlite => cases h
  | postgres =>
    rw [listRecentDrafts, requireCommunity_bind] at h
    split at h
    · cases h
    split at h
    · cases h
    · cases h
      exact fun s hs => Tables.mem_listRecentDrafts hs

end Reads

/-! ## The pact -/

/-- The rows a service brings are those of messages, and what it reads of a community was said
there. -/
def exchange (said : InboundMessage → Prop) : Pact Call Reply where
  asks
    | .repo c => c.Brings said
    | .sys (.setLatestSources community cs) => ∀ c ∈ cs, c.communityId = community ∧ c.Of said
    | .sys _ => True
  gives
    | .repo (.listSourceMessages community _), r | .repo (.listRecentDrafts community _), r =>
      ∀ rows : List SourceMessage, r = .ok rows → ∀ s ∈ rows, s.communityId = community ∧ s.Of said
    | .repo (.denseCandidates _ _ scope), r | .repo (.sparseCandidates _ scope), r =>
      ∀ rows : List EventChunk, r = .ok rows → ∀ c ∈ rows, c.communityId = scope.community ∧
        c.Of said
    | .sys (.getLatestSources community), r =>
      ∀ cs : List EventChunk, r = some cs → ∀ c ∈ cs, c.communityId = community ∧ c.Of said
    | _, _ => True

/-- The rows of a world, and the chunks cited by its latest answers. -/
structure World.Told {kind : StoreKind} {engine : SearchEngine} (said : InboundMessage → Prop)
    (w : World (kind.backend engine).State) : Prop where
  rows : w.rows.Said said
  latest : ∀ e ∈ w.latestSources, ∀ c ∈ e.2, c.communityId = e.1 ∧ c.Of said

section Honours

variable {kind : StoreKind} {engine : SearchEngine} {env : Env} {said : InboundMessage → Prop}

theorem said_backend {c : RepoCall} (hc : c.Brings said) {s : (kind.backend engine).State}
    (h : ((kind.backend engine).tables s).Said said) :
    ((kind.backend engine).tables ((kind.backend engine).handle c s).2).Said said := by
  cases kind with
  | mock => exact MockDomainStore.said_handle hc h
  | sql dialect => exact SqlDomainStore.said_handle hc h

/-- What a store returns was said. -/
theorem gives_backend (c : RepoCall) {s : (kind.backend engine).State}
    (h : ((kind.backend engine).tables s).Said said) :
    (exchange said).gives (.repo c) ((kind.backend engine).handle c s).1 := by
  cases kind with
  | mock =>
    cases c with
    | listSourceMessages =>
      exact fun rows hr s hs =>
        have hmem := MockDomainStore.mem_listSourceMessages hr s hs
        ⟨hmem.2, h.sources s hmem.1⟩
    | listRecentDrafts =>
      exact fun rows hr s hs =>
        have hmem := MockDomainStore.mem_listRecentDrafts hr s hs
        ⟨hmem.2, h.sources s hmem.1⟩
    | denseCandidates =>
      exact fun rows hr c hc =>
        have hmem := MockDomainStore.mem_denseCandidates hr c hc
        ⟨hmem.2, h.chunks c hmem.1⟩
    | sparseCandidates =>
      exact fun rows hr c hc =>
        have hmem := MockDomainStore.mem_sparseCandidates hr c hc
        ⟨hmem.2, h.chunks c hmem.1⟩
    | _ => trivial
  | sql dialect =>
    cases c with
    | listSourceMessages =>
      exact fun rows hr s hs =>
        have hmem := SqlDomainStore.mem_listSourceMessages hr s hs
        ⟨hmem.2, h.sources s hmem.1⟩
    | listRecentDrafts =>
      exact fun rows hr s hs =>
        have hmem := SqlDomainStore.mem_listRecentDrafts hr s hs
        ⟨hmem.2, h.sources s hmem.1⟩
    | denseCandidates =>
      exact fun rows hr c hc =>
        have hmem := SqlDomainStore.mem_denseCandidates hr c hc
        ⟨hmem.2, h.chunks c hmem.1⟩
    | sparseCandidates =>
      exact fun rows hr c hc =>
        have hmem := SqlDomainStore.mem_sparseCandidates hr c hc
        ⟨hmem.2, h.chunks c hmem.1⟩
    | _ => trivial

/-- A call that raises returns nothing. -/
theorem gives_error (c : RepoCall) (e : Exn) :
    (exchange said).gives (.repo c) (.error e : Except Exn (RepoReply c)) := by
  cases c with
  | listSourceMessages | listRecentDrafts | denseCandidates | sparseCandidates =>
    rintro rows ⟨⟩
  | _ => trivial

/-- The three stores honour the pact, whatever fails. -/
theorem honours_serve :
    (exchange said).Honours (serve (kind.backend engine) env) (World.Told said) := by
  rintro (c | c) w hw hc
  · simp only [serve, respond, serveRepo]
    cases env.storeFails w.tick c with
    | some e => exact ⟨gives_error c e, hw.rows, hw.latest⟩
    | none => exact ⟨gives_backend c hw.rows, said_backend hc hw.rows, hw.latest⟩
  · cases c with
    | getLatestSources community =>
      refine ⟨fun cs hcs c hc => ?_, hw.rows, hw.latest⟩
      obtain ⟨e, he, rfl⟩ := Option.map_eq_some_iff.mp hcs
      rw [← Table.key_of_find? he]
      exact hw.latest e (Table.mem_of_find? he) c hc
    | setLatestSources community cs =>
      exact ⟨trivial, hw.rows, Table.forall_put hw.latest hc⟩
    | _ => exact ⟨trivial, hw.rows, hw.latest⟩

end Honours

end DiaryMemory
