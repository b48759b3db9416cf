import DiaryMemory.Operations

/-!
# Requests of one community

Every request is made for one community (`Operation.community`), with at most one embedding
client (`Operation.client`). What its calls promise has one form for all requests
(`RepoCall.Scoped`) : the rows they write are of the community, a record holds a vector of
the text of its chunk, a chunk turns ready once it has a record, and a dead letter names
chunks of its source row. `runAll_scoped` carries an invariant that such calls keep along a
run in which any call may fail.
-/

namespace DiaryMemory

/-- What a repository call of a request promises. -/
def RepoCall.Scoped (env : Env) (client : Option EmbeddingClient) (community : String) :
    RepoCall → Tables → Prop
  | getOrCreateSourceMessage s, _ => s.communityId = community
  | saveNote n, _ => n.communityId = community
  | saveEventChunks cs, _ => ∀ c ∈ cs, c.communityId = community
  | saveEmbeddingRecords rs, T => ∀ r ∈ rs, r.communityId = community ∧ T.EmbedsAs env client r
  | setChunkEmbeddingStatus id status, T =>
    (∃ c ∈ T.eventChunks, c.chunkId = id ∧ c.communityId = community) ∧
      (status = .ready → T.HasRecord client id)
  | markNote _ _ c, _ | markChunk _ _ c, _ | hardDeleteSourceMessage _ c, _ => c = community
  | saveIndexingDeadLetter d, T => d.communityId = community ∧ T.OwnsChunks d
  | saveQuery q, _ => q.communityId = community
  | saveRetrievalHits hs, T => ∀ h ∈ hs, T.QueryOf community h.queryId ∧
    ∃ c ∈ T.eventChunks, c.chunkId = h.chunkId ∧ c.communityId = community
  | saveAnswerTrace t, T => T.QueryOf community t.queryId
  | saveChatRouteDecision d, _ => d.communityId = community
  | saveChatQueryRewrite r, _ => r.communityId = community
  | saveChatKnowledgeSearch s, _ => s.communityId = community
  | _, _ => True

namespace Operation

/-- The community a request is made for. -/
def community : Operation → String
  | ingest _ message | ask _ message .. | chat _ message .. | dispatch _ message =>
    message.communityId
  | delete _ _ community | retry _ community _ | hardDelete _ community => community

/-- The embedding client of a request that writes embeddings. -/
def client : Operation → Option EmbeddingClient
  | ingest service _ => service.embeddingClient
  | retry service _ _ => service.embeddingClient
  | dispatch dispatcher _ => dispatcher.domain.embeddingClient
  | _ => none

end Operation

section Promises

variable {env : Env} {client : Option EmbeddingClient} {community : String} {T₀ T : Tables}
  {c : RepoCall}

theorem IngestPromise.scoped (h : IngestPromise env client community T₀ (.repo c) T) :
    c.Scoped env client community T := by
  obtain ⟨source, -, h⟩ := h
  cases c with
  | getOrCreateSourceMessage s => exact h.2
  | saveNote n => exact h.2
  | saveEventChunks cs => exact fun x hx => (h x hx).2
  | saveEmbeddingRecords rs => exact fun r hr => ⟨(h r hr).1, (h r hr).2.1⟩
  | setChunkEmbeddingStatus id status =>
    obtain ⟨⟨x, hx, hid, -, hc, -⟩, hready⟩ := h
    exact ⟨⟨x, hx, hid, hc⟩, hready⟩
  | saveIndexingDeadLetter d => exact h.2
  | markNote | markChunk => exact h
  | getNoteBySourceMessageId | getActiveNoteForExternalMessage | countEventChunksForSource
  | getActiveChunkForNote => trivial
  | _ => exact absurd h id

theorem DeleteCall.scoped (h : DeleteCall community (.repo c) T) :
    c.Scoped env client community T := by
  cases c with
  | markNote | markChunk => exact h
  | getActiveNoteForExternalMessage | getActiveChunkForNote => trivial
  | _ => exact absurd h id

theorem RetryCall.scoped {limit : Option Int}
    (h : RetryCall env client community limit T₀ (.repo c) T) :
    c.Scoped env client community T := by
  cases c with
  | saveEmbeddingRecords rs => exact fun r hr => ⟨(h r hr).1, (h r hr).2.1⟩
  | setChunkEmbeddingStatus id status =>
    obtain ⟨-, hrecord, x, ⟨hlisted, status', hx⟩, hid⟩ := h
    have hfailed := (T₀.listFailedEventChunks_sublist community limit).subset hlisted
    exact ⟨⟨_, hx, hid, (Tables.mem_failedChunks.mp hfailed).2.1⟩, fun _ => hrecord⟩
  | saveIndexingDeadLetter d => exact h
  | listFailedEventChunks => trivial
  | _ => exact absurd h id

theorem AnswerCall.scoped (h : AnswerCall community (.repo c) T) :
    c.Scoped env client community T := by
  cases c with
  | saveQuery | saveRetrievalHits | saveAnswerTrace | saveChatRouteDecision | saveChatQueryRewrite
  | saveChatKnowledgeSearch => exact h
  | denseCandidates | sparseCandidates | listRecentDrafts | listSourceMessages => trivial
  | _ => exact absurd h id

theorem QuietCall.scoped (h : QuietCall (.repo c) T) : c.Scoped env client community T := by
  have hanswer : AnswerCall community (.repo c) T := h.answerCall
  exact hanswer.scoped

theorem DispatchCall.scoped {dispatcher : Dispatcher} {message : InboundMessage}
    (h : DispatchCall env dispatcher message T₀ (.repo c) T) :
    c.Scoped env dispatcher.domain.embeddingClient message.communityId T := by
  unfold DispatchCall at h
  cases hroute : message.route <;> rw [hroute] at h
  case note | draft => exact IngestPromise.scoped h
  case ask =>
    rcases h with h | ⟨_, h, -⟩
    · exact AnswerCall.scoped h
    · cases h
  case chat => exact AnswerCall.scoped h
  case drafts | export_ => exact QuietCall.scoped h
  case delete => exact DeleteCall.scoped h
  case sources => cases h
  all_goals exact absurd h id

/-- What any request promises of its calls. -/
theorem Operation.promise_scoped {o : Operation} (h : o.Promise env T₀ (.repo c) T) :
    c.Scoped env o.client o.community T := by
  cases o with
  | ingest service message => exact IngestPromise.scoped h
  | delete chat target community => exact DeleteCall.scoped h
  | retry service community limit => exact RetryCall.scoped h
  | hardDelete id community =>
    cases h
    rfl
  | ask | chat => exact AnswerCall.scoped h
  | dispatch dispatcher message => exact DispatchCall.scoped h

end Promises

section Runs

variable {kind : StoreKind} {engine : SearchEngine} {env : Env}
  {w : World (kind.backend engine).State}

/-- What a request leaves, made of what its calls keep. -/
theorem Operation.keeps (hs : Sound env w) (o : Operation) {I : Tables → Prop} (hI : I w.rows)
    (hstep : ∀ (c : RepoCall) T, T.Linked → c.Guard T → ¬ c.Refused kind T →
      c.Scoped env o.client o.community T → I T → I (c.effect T)) :
    I (o.run (kind.backend engine) env w).rows := by
  obtain ⟨-, es, -, ht⟩ := run_spec hs o
  exact (ht.keeps (fun c T hT hg ha hp => hstep c T hT hg ha (promise_scoped hp)) hI).1

/-- What every scoped call keeps holds after every run, whatever fails. -/
theorem runAll_scoped {I : Tables → Prop} {ops : List Operation} (hI : I {})
    (hstep : ∀ o ∈ ops, ∀ (c : RepoCall) T, T.Linked → c.Guard T → ¬ c.Refused kind T →
      c.Scoped env o.client o.community T → I T → I (c.effect T)) :
    I (runAll (kind.backend engine) env (World.initial kind engine) ops).rows := by
  refine runAll_induction (I := fun w => I w.rows) (sound_initial kind engine env) ?_
    fun o ho v hv hIv => o.keeps hv hIv (hstep o ho)
  cases kind <;> exact hI

end Runs

end DiaryMemory
