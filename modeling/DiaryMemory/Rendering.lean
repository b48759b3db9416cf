import DiaryMemory.Grading

/-!
# What the replies show

The reply to `/ask` shows the text of the model exactly when it depends on it
(`AnswerResult.Surfaces`). An answer is guarded when it does so exactly with citations, of chunks
of its context, and an ungrounded one cites nothing and leaves nothing to `/sources`
(`AnswerResult.Guarded`). `ask_guarded_iff` names the one reply that breaks this, by what the
question retrieves in the state it is asked in (`QueryService.Offers`).
-/

namespace DiaryMemory

variable {kind : StoreKind} {engine : SearchEngine} {env : Env}
  {w w' : World (kind.backend engine).State} {community : String}

/-! ## The reply to a question -/

/-- The reply depends on the text of the answer. -/
def AnswerResult.Surfaces (a : AnswerResult) : Prop :=
  ∃ text, formatAnswerReply { a with answerText := some text } ≠ formatAnswerReply a

/-- The grades of an answer that is not grounded. -/
def FallbackMode.isUngrounded : FallbackMode → Bool
  | .noEvidence | .providerUnavailable | .parseFailure => true
  | _ => false

/-- The grounded grades show the text, each with its trailer. -/
theorem AnswerResult.surfaces_iff {a : AnswerResult} :
    a.Surfaces ↔ a.fallback = .none ∨ a.fallback = .weakEvidence ∨ a.fallback = .ambiguous := by
  have hshown : ∀ trailer : String, (∀ a' : AnswerResult, a'.fallback = a.fallback →
      formatAnswerReply a' = orEmpty a'.answerText ++ trailer) → a.Surfaces := by
    intro trailer h
    refine ⟨orEmpty a.answerText ++ "x", fun he => ?_⟩
    rw [h { a with answerText := some (orEmpty a.answerText ++ "x") } rfl, h a rfl] at he
    have hlength := congrArg String.length he
    simp only [orEmpty, Option.getD_some, String.length_append] at hlength
    simp at hlength
  constructor
  · rintro ⟨text, hne⟩
    cases hf : a.fallback with
    | none => exact .inl rfl
    | weakEvidence => exact .inr (.inl rfl)
    | ambiguous => exact .inr (.inr rfl)
    | _ => exact absurd (by simp only [formatAnswerReply, hf]) hne
  · rintro (hf | hf | hf)
    · exact hshown "" fun a' h => by simp only [formatAnswerReply, h, hf, String.append_empty]
    · exact hshown ("\n\n" ++ trailerWeakEvidence) fun a' h => by
        simp only [formatAnswerReply, h, hf, String.append_assoc]
    · exact hshown ("\n\n" ++ trailerAmbiguous) fun a' h => by
        simp only [formatAnswerReply, h, hf, String.append_assoc]

/-- What one `/ask` owes its user, where the `/sources` after it shows some chunks. -/
structure AnswerResult.Guarded (a : AnswerResult) (shown : List EventChunk) : Prop where
  surfaced : a.Surfaces ↔ a.citedChunkIds ≠ []
  inContext : ∀ id ∈ a.citedChunkIds, ∃ context, a.context = some context ∧ id ∈ context.chunkIds
  ungrounded : a.fallback.isUngrounded = true → a.citedChunkIds = [] ∧ shown = []

/-- The reply says that there is no evidence, and cites chunks of those offered. -/
def ContradictsItself (json : JsonModule) (reply : Except Exn ChatResponse)
    (offered : List String) : Prop :=
  ∃ response answer context, reply = .ok response ∧ context.chunkIds = offered ∧
    parseStructuredAnswer json response.rawText context = .ok answer ∧
    answer.uncertainty = .noEvidence ∧ answer.citedChunkIds ≠ []

/-- What a question retrieves, once its query has a date and an identifier. -/
def QueryService.lookup (service : QueryService) (message : InboundMessage) :
    Proc RetrievedCandidates := do
  let _ ← Proc.now
  let _ ← Proc.uuid4
  service.retrieve message.communityId (normalizeQuery message.payload) none none

/-- Asked in the state, the question retrieves these chunks. -/
def QueryService.Offers (service : QueryService) (B : Backend) (env : Env)
    (message : InboundMessage) (w : World B.State) (offered : List String) : Prop :=
  normalizeQuery message.payload ≠ "" ∧ ∃ found,
    ((service.lookup message).exec B env w).1 = .ok found ∧
      offered = found.merged.map fun hit => hit.chunk.chunkId

/-- Asked in the state, the question raises `NotImplementedError`, as one without a search seam. -/
def QueryService.Unavailable (service : QueryService) (B : Backend) (env : Env)
    (message : InboundMessage) (w : World B.State) : Prop :=
  ∃ text, ((service.answer message none none).exec B env w).1 = .error (.notImplementedError text)

/-- A parser looks at the chunk ids of a context. -/
theorem parseStructuredAnswer_congr {json : JsonModule} {raw : String}
    {context context' : AnswerContext} (h : context.chunkIds = context'.chunkIds) :
    parseStructuredAnswer json raw context = parseStructuredAnswer json raw context' := by
  simp only [parseStructuredAnswer, h]

/-- Where nothing is offered, nothing that is parsed cites. -/
theorem not_contradictsItself_nil {json : JsonModule} {reply : Except Exn ChatResponse} :
    ¬ ContradictsItself json reply [] := by
  rintro ⟨response, answer, context, -, hids, hparse, -, hcited⟩
  have hcontext := (StructuredAnswer.grounded hparse).1
  rw [hids] at hcontext
  exact hcited (List.subset_nil.mp hcontext)

theorem citedChunks_of_nil {a : AnswerResult} (h : a.citedChunkIds = []) :
    Dispatcher.citedChunks a = [] := by
  unfold Dispatcher.citedChunks
  cases a.context with
  | none => rfl
  | some context => simp [h]

/-- An answer that cites nothing is guarded unless it is grounded. -/
theorem AnswerResult.Guarded.of_nil {a : AnswerResult} (hcited : a.citedChunkIds = [])
    (hf : a.fallback.isUngrounded = true) : a.Guarded (Dispatcher.citedChunks a) where
  surfaced := by
    rw [a.surfaces_iff, hcited]
    cases hmode : a.fallback <;> rw [hmode] at hf <;> simp [FallbackMode.isUngrounded] at hf ⊢
  inContext id hid := by simp [hcited] at hid
  ungrounded _ := ⟨hcited, citedChunks_of_nil hcited⟩

/-- The answer of a graded reply is guarded unless the reply contradicts itself. -/
theorem QueryService.guarded_iff {service : QueryService} {context : AnswerContext}
    {reply : Except Exn ChatResponse} {g : Graded} {queryText : String} {merged : List FusedHit}
    (h : service.grade context reply = .ok g) :
    (g.result queryText context merged).Guarded
        (Dispatcher.citedChunks (g.result queryText context merged)) ↔
      ¬ ContradictsItself service.json reply context.chunkIds := by
  unfold grade at h
  split at h
  · cases h
    refine iff_of_true (.of_nil rfl rfl) ?_
    rintro ⟨response, answer, _, he, -⟩
    cases he
  · cases h
  · next response =>
    split at h
    · next hparse =>
      cases h
      refine iff_of_true (.of_nil rfl rfl) ?_
      rintro ⟨_, answer, _, he, hids, hok, -⟩
      cases he
      rw [parseStructuredAnswer_congr hids, hparse] at hok
      cases hok
    · cases h
    · next structured hparse =>
      cases h
      obtain ⟨hcontext, hempty⟩ := StructuredAnswer.grounded hparse
      have hcontradicts : ContradictsItself service.json (.ok response) context.chunkIds ↔
          structured.uncertainty = .noEvidence ∧ structured.citedChunkIds ≠ [] := by
        constructor
        · rintro ⟨_, answer, _, he, hids, hok, hboth⟩
          cases he
          rw [parseStructuredAnswer_congr hids, hparse] at hok
          cases hok
          exact hboth
        · exact fun hboth => ⟨response, structured, context, rfl, rfl, hparse, hboth⟩
      rw [hcontradicts]
      by_cases hmarker : structured.uncertainty = .noEvidence
      · by_cases hcited : structured.citedChunkIds = []
        · refine iff_of_true (.of_nil hcited ?_) fun hboth => hboth.2 hcited
          simp [Graded.result, hmarker, markerToFallback, FallbackMode.isUngrounded]
        · refine iff_of_false (fun hg => hcited (hg.ungrounded ?_).1) fun hn => hn ⟨hmarker, hcited⟩
          simp [Graded.result, hmarker, markerToFallback, FallbackMode.isUngrounded]
      · have hcited : structured.citedChunkIds ≠ [] := fun hnil => hmarker (hempty hnil)
        refine iff_of_true ⟨?_, fun id hid => ⟨context, rfl, hcontext hid⟩, fun hf => ?_⟩
          fun hboth => hmarker hboth.1
        · refine iff_of_true (AnswerResult.surfaces_iff.mpr ?_) hcited
          cases hu : structured.uncertainty <;>
            simp [Graded.result, hu, markerToFallback] at hmarker ⊢
        · cases hu : structured.uncertainty <;>
            simp [Graded.result, hu, markerToFallback, FallbackMode.isUngrounded] at hmarker hf

/-- The answer to a question is guarded unless the reply it got contradicts itself. -/
theorem AskAnswer.guarded_iff {service : QueryService} {message : InboundMessage}
    {a : AnswerResult} {reply : Except Exn ChatResponse} (h : AskAnswer env service message w w' a)
    (henv : ∀ n prompt, w.tick ≤ n → env.complete n prompt = reply) :
    a.Guarded (Dispatcher.citedChunks a) ↔ ¬ ∃ context, a.context = some context ∧
      ContradictsItself service.json reply context.chunkIds := by
  cases h with
  | unavailable h =>
    refine iff_of_true (.of_nil rfl rfl) ?_
    rintro ⟨context, he, -⟩
    cases he
  | @answered _ context _ _ h =>
    obtain ⟨queryText, rfl⟩ := h.result
    have honly : ∀ P : AnswerContext → Prop,
        (∃ context', some context = some context' ∧ P context') ↔ P context := by simp
    refine Iff.trans ?_ (not_congr (honly fun context =>
      ContradictsItself service.json reply context.chunkIds)).symm
    rcases h.verdict with ⟨hnone, rfl, -⟩ | ⟨n, prompt, hn, -, hgrade⟩
    · refine iff_of_true (.of_nil rfl rfl) ?_
      rw [AnswerContext.chunkIds, hnone]
      exact not_contradictsItself_nil
    · rw [henv n prompt hn] at hgrade
      exact QueryService.guarded_iff hgrade

/-! ### What was retrieved for it -/

section Retrieved

variable {B : Backend} {service : QueryService} {message : InboundMessage} {v v' : World B.State}
  {a : AnswerResult}

/-- An answer holds the context it was graded in. -/
theorem QueryService.context_of_finalize {query : Query} {candidates : RetrievedCandidates}
    {context : AnswerContext} {graded : Graded}
    (h : (finalize query candidates context graded).exec B env v = (.ok a, v')) :
    a.context = some context := by
  obtain ⟨_, v₁, -, h⟩ := Proc.ok_of_exec_bind h
  obtain ⟨_, v₂, -, h⟩ := Proc.ok_of_exec_bind h
  obtain ⟨_, v₃, -, h⟩ := Proc.ok_of_exec_bind h
  obtain ⟨_, v₄, -, h⟩ := Proc.ok_of_exec_bind h
  rw [← Except.ok.inj (congrArg Prod.fst h)]

/-- That is the context of what was found. -/
theorem QueryService.context_of_found {query : Query} {found : RetrievedCandidates}
    (h : (if found.merged = [] then
        finalize query found (assembleAnswerContext query found.merged) service.noEvidence
      else service.generate query found).exec B env v = (.ok a, v')) :
    a.context = some (assembleAnswerContext query found.merged) := by
  split at h
  · exact context_of_finalize h
  · obtain ⟨_, v₁, -, h⟩ := Proc.ok_of_exec_bind h
    obtain ⟨_, v₂, -, h⟩ := Proc.ok_of_exec_bind h
    obtain ⟨_, v₃, -, h⟩ := Proc.ok_of_exec_bind h
    exact context_of_finalize h

/-- The context of an answer offers what the question retrieves in the state it is asked in. -/
theorem QueryService.context_of_answer
    (h : (service.answer message none none).exec B env v = (.ok a, v')) :
    ∃ context, a.context = some context ∧
      (normalizeQuery message.payload = "" ∧ context.chunkIds = [] ∨
        ∀ offered, service.Offers B env message v offered ↔ offered = context.chunkIds) := by
  unfold answer at h
  split at h
  · cases h
  obtain ⟨createdAt, v₁, hnow, h⟩ := Proc.ok_of_exec_bind h
  obtain ⟨queryId, v₂, hid, h⟩ := Proc.ok_of_exec_bind h
  unfold answerNew at h
  dsimp only at h
  split at h
  · next hempty => exact ⟨_, context_of_finalize h, .inl ⟨hempty, rfl⟩⟩
  · next htext =>
    obtain ⟨found, v₃, hfound, h⟩ := Proc.ok_of_exec_bind h
    have hlookup : (service.lookup message).exec B env v = (.ok found, v₃) :=
      (Proc.exec_bind_ok hnow).trans ((Proc.exec_bind_ok hid).trans hfound)
    have hoffers : ∀ offered, service.Offers B env message v offered ↔
        offered = found.merged.map fun hit => hit.chunk.chunkId := by
      intro offered
      unfold Offers
      rw [hlookup]
      refine ⟨?_, fun ho => ⟨htext, found, rfl, ho⟩⟩
      rintro ⟨-, _, hsame, ho⟩
      rwa [← Except.ok.inj hsame] at ho
    have hids : ∀ query, (assembleAnswerContext query found.merged).chunkIds =
        found.merged.map fun hit => hit.chunk.chunkId := fun query => List.map_map
    exact ⟨_, context_of_found h, .inr fun offered => (hoffers offered).trans (by rw [hids])⟩

/-- What `/ask` answers a question that returned, and one that was not there. -/
theorem answer_of_ask {dispatcher : Dispatcher}
    (h : (dispatcher.answerAsk message).exec B env v = (.ok a, v')) :
    (dispatcher.query.answer message none none).exec B env v = (.ok a, v') ∨
      dispatcher.query.Unavailable B env message v ∧ a.context = none := by
  obtain ⟨x, v₁, hquestion, h⟩ := Proc.ok_of_exec_bind h
  rw [Proc.exec_capture] at hquestion
  obtain ⟨hx, rfl⟩ := Prod.mk.inj hquestion
  have hresult := Except.ok.inj hx
  split at h
  · cases h
    exact .inr ⟨⟨_, hresult⟩, rfl⟩
  · cases h
  · cases h
    exact .inl (Prod.ext hresult rfl)

/-- So the condition on its context is one on the state it is asked in. -/
theorem QueryService.contradicts_iff {P : List String → Prop} (hnil : ¬ P [])
    (h : (service.answer message none none).exec B env v = (.ok a, v')) :
    (∃ context, a.context = some context ∧ P context.chunkIds) ↔
      ∃ offered, service.Offers B env message v offered ∧ P offered := by
  obtain ⟨context, hcontext, ⟨hempty, hids⟩ | hoffers⟩ := context_of_answer h
  · refine iff_of_false ?_ ?_
    · rintro ⟨context', he, hP⟩
      rw [hcontext] at he
      cases he
      exact hnil (hids ▸ hP)
    · rintro ⟨offered, ⟨htext, -⟩, -⟩
      exact htext hempty
  · constructor
    · rintro ⟨context', he, hP⟩
      rw [hcontext] at he
      cases he
      exact ⟨_, (hoffers _).mpr rfl, hP⟩
    · rintro ⟨offered, ho, hP⟩
      exact ⟨context, hcontext, (hoffers offered).mp ho ▸ hP⟩

/-- The fixed text has no context. -/
theorem QueryService.not_contradicts_iff {P : List String → Prop} {dispatcher : Dispatcher}
    (hnil : ¬ P []) (h : (dispatcher.answerAsk message).exec B env v = (.ok a, v')) :
    (¬ ∃ context, a.context = some context ∧ P context.chunkIds) ↔
      ¬ (∃ offered, dispatcher.query.Offers B env message v offered ∧ P offered) ∨
        dispatcher.query.Unavailable B env message v := by
  rcases answer_of_ask h with hquestion | ⟨hunavailable, hnone⟩
  · rw [contradicts_iff hnil hquestion]
    refine (or_iff_left ?_).symm
    rintro ⟨text, hraised⟩
    rw [hquestion] at hraised
    cases hraised
  · refine iff_of_true ?_ (.inr hunavailable)
    rintro ⟨context, hcontext, -⟩
    rw [hnone] at hcontext
    cases hcontext

/-- An `/ask` replies with its answer, and keeps the cited chunks for `/sources`. -/
theorem dispatchAsk_of_answer {dispatcher : Dispatcher}
    (h : (dispatcher.answerAsk message).exec B env v = (.ok a, v')) :
    ((dispatcher.dispatchAsk message).exec B env v).1.map DispatchResult.replyText =
        .ok (formatAnswerReply a) ∧
      ((dispatcher.dispatchAsk message).exec B env v).2.latestSources =
        v'.latestSources.put (message.communityId, Dispatcher.citedChunks a) := by
  have hrest : (dispatcher.dispatchAsk message).exec B env v = (do
      Dispatcher.updateLatestSources message.communityId a
      pure ⟨formatAnswerReply a, .ask, Dispatcher.pathMetadata message a.fallback [], none, none,
        none⟩ : Proc DispatchResult).exec B env v' := Proc.exec_bind_ok h
  rw [hrest]
  exact ⟨rfl, rfl⟩

end Retrieved

/-- `/sources` shows the chunks that were kept for the community. -/
theorem shown_of_latestSources {v : World (kind.backend engine).State} (hs : Sound env v)
    {sources : InboundMessage} {chunks : List EventChunk} {latest : Table Prod.fst}
    (h : v.latestSources = latest.put (sources.communityId, chunks)) :
    ∃ shown, ((Dispatcher.dispatchSources sources).exec (kind.backend engine) env v).1 = .ok shown ∧
      shown.sourceChunks.getD [] = chunks := by
  have hshown : SourcesEnd sources v
      ((Dispatcher.dispatchSources sources).exec (kind.backend engine) env v).1
      ((Dispatcher.dispatchSources sources).exec (kind.backend engine) env v).2 :=
    (Proc.exec_of_wp hs (P := fun _ _ => True) (wp_dispatchSources fun _ => trivial)).2.2
  cases hsource : ((Dispatcher.dispatchSources sources).exec (kind.backend engine) env v).1 with
  | error e =>
    rw [hsource] at hshown
    exact absurd hshown id
  | ok shown =>
    rw [hsource] at hshown
    refine ⟨shown, rfl, ?_⟩
    rw [hshown.2, h, Table.find?_put, if_pos rfl]
    rfl

/-- After every run, an `/ask` that returns is guarded, together with the `/sources` after it,
exactly when the reply the provider gives does not contradict itself about what the question
retrieves in the state it is asked in, or the question raises `NotImplementedError`. -/
theorem ask_guarded_iff (kind : StoreKind) (engine : SearchEngine) (env : Env)
    (ops : List Operation) (dispatcher : Dispatcher) (message : InboundMessage)
    (reply : Except Exn ChatResponse) :
    let B := kind.backend engine
    let w := runAll B env (World.initial kind engine) ops
    let r := (dispatcher.dispatchAsk message).exec B env w
    (∀ n prompt, w.tick ≤ n → env.complete n prompt = reply) → ∀ result, r.1 = .ok result →
      ∃ a, ((dispatcher.answerAsk message).exec B env w).1 = .ok a ∧
        result.replyText = formatAnswerReply a ∧
        ∀ sources : InboundMessage, sources.communityId = message.communityId →
          ∃ shown, ((Dispatcher.dispatchSources sources).exec B env r.2).1 = .ok shown ∧
            (a.Guarded (shown.sourceChunks.getD []) ↔
              ¬ (∃ offered, dispatcher.query.Offers B env message w offered ∧
                ContradictsItself dispatcher.query.json reply offered) ∨
              dispatcher.query.Unavailable B env message w) := by
  intro B w r henv result hr
  have hs : Sound env w := sound_run env ops
  have hs₂ : Sound env r.2 := (Proc.exec_of_wp hs (wp_dispatchAsk hs)).1
  obtain ⟨x, w₁, hexec⟩ : ∃ x w₁, (dispatcher.answerAsk message).exec B env w = (x, w₁) :=
    ⟨_, _, rfl⟩
  cases x with
  | error e =>
    have hraise : r = (.error e, w₁) := Proc.exec_bind_error hexec
    rw [hraise] at hr
    cases hr
  | ok a =>
    have hanswer : AskAnswer env dispatcher.query message w w₁ a := by
      have hend := (Proc.exec_of_wp hs (@wp_answerAsk kind engine env w dispatcher message hs)).2.2
      rw [hexec] at hend
      exact hend
    obtain ⟨hreply, hlatest⟩ := dispatchAsk_of_answer hexec
    refine ⟨a, congrArg Prod.fst hexec, ?_, fun sources hsources => ?_⟩
    · change r.1.map DispatchResult.replyText = _ at hreply
      rw [hr] at hreply
      exact Except.ok.inj hreply
    · obtain ⟨shown, hshown, hcited⟩ := shown_of_latestSources hs₂ (hsources ▸ hlatest)
      exact ⟨shown, hshown, hcited ▸ (hanswer.guarded_iff henv).trans
        (QueryService.not_contradicts_iff not_contradictsItself_nil hexec)⟩

/-- An answer with the marker that cites one chunk. -/
def citingText (marker : String) : String :=
  "\x7b\"answer_text\": \"a walk\", \"cited_chunk_ids\": [\"xx\"], \"uncertainty\": \"" ++ marker ++
    "\"\x7d"

/-- The object. -/
def citingObject (marker : String) : Json :=
  .dict [("answer_text", .str "a walk"), ("cited_chunk_ids", .list [.str "xx"]),
    ("uncertainty", .str marker)]

/-- The decoder, told what the text decodes to. -/
def JsonModule.citing (marker : String) : JsonModule :=
  .first .standard (citingText marker) (citingObject marker)

theorem JsonModule.citing_eq (marker : String)
    (h : JsonText.dumps {} (.dict [("answer_text", .str "a walk"),
      ("cited_chunk_ids", .list [.str "xx"]), ("uncertainty", .str marker)]) = citingText marker) :
    citing marker = standard :=
  first_eq (standard_loads h rfl)

/-- A provider that gives it. -/
def Env.citing (marker : String) : Env :=
  { Env.steady with complete := fun _ _ => .ok ⟨citingText marker, "model", [], 0⟩ }

/-- A dispatcher of a store that is searched. -/
def Dispatcher.citing (json : JsonModule) : Dispatcher where
  domain := ⟨some ⟨"model", 1⟩⟩
  query := ⟨⟨"model", 1⟩, "chat", json, 5, 20, by decide⟩
  parseInt _ := none

/-- A confident answer that cites the one note there is, is guarded. -/
theorem ask_guarded_confident :
    let B := StoreKind.mock.backend .plain
    let env := Env.citing "confident"
    let w := runAll B env (World.initial .mock .plain)
      [.ingest ⟨some ⟨"model", 1⟩⟩ (.plain .note "2026-05-09\nwalk" 0)]
    let r := ((Dispatcher.citing .standard).dispatchAsk (.plain .ask "walk" 1)).exec B env w
    ∃ a shown, r.1.toOption.map DispatchResult.replyText = some (formatAnswerReply a) ∧
      formatAnswerReply a = "a walk" ∧
      ((Dispatcher.dispatchSources (.plain .sources "" 2)).exec B env r.2).1 = .ok shown ∧
      a.Guarded (shown.sourceChunks.getD []) := by
  rw [← JsonModule.citing_eq "confident" (by decide +kernel)]
  intro B env w r
  have htext : r.1.toOption.map DispatchResult.replyText = some "a walk" := by decide +kernel
  cases hr : r.1 with
  | error e =>
    rw [hr] at htext
    cases htext
  | ok result =>
    rw [hr] at htext
    obtain ⟨a, ha, hreply, hsources⟩ := ask_guarded_iff .mock .plain env
      [.ingest ⟨some ⟨"model", 1⟩⟩ (.plain .note "2026-05-09\nwalk" 0)] (.citing _)
      (.plain .ask "walk" 1) (.ok ⟨citingText "confident", "model", [], 0⟩) (fun _ _ _ => rfl)
      result hr
    obtain ⟨shown, hshown, hiff⟩ := hsources (.plain .sources "" 2) rfl
    refine ⟨a, shown, congrArg some hreply, hreply.symm.trans (Option.some.inj htext), hshown,
      hiff.mpr (.inl ?_)⟩
    rintro ⟨offered, -, response, answer, context, he, -, hparse, hnone, -⟩
    cases he
    have hconfident : parseStructuredAnswer (.citing "confident") (citingText "confident") context =
        (if fabricated context.chunkIds ["xx"] ≠ [] then throw (fabricatedCitation
            ("cited_chunk_ids not present in AnswerContext: " ++
              (JsonModule.citing "confident").reprList (fabricated context.chunkIds ["xx"])))
          else pure ⟨"a walk", ["xx"], .confident⟩) := by
      rfl
    change parseStructuredAnswer (.citing "confident") (citingText "confident") context = _ at hparse
    rw [hconfident] at hparse
    split at hparse
    · cases hparse
    · cases hparse
      cases hnone

/-- An answer that says there is no evidence and cites the note is not guarded : `/sources` shows
the note although the reply does not show the answer. -/
theorem not_guarded_contradiction :
    let B := StoreKind.mock.backend .plain
    let env := Env.citing "no_evidence"
    let w := runAll B env (World.initial .mock .plain)
      [.ingest ⟨some ⟨"model", 1⟩⟩ (.plain .note "2026-05-09\nwalk" 0)]
    let r := ((Dispatcher.citing .standard).dispatchAsk (.plain .ask "walk" 1)).exec B env w
    (∀ a, (((Dispatcher.citing .standard).answerAsk (.plain .ask "walk" 1)).exec B env w).1 =
      .ok a → a.fallback = .noEvidence ∧ a.citedChunkIds = ["xx"] ∧ ¬ a.Surfaces ∧
        ∀ shown, ¬ a.Guarded shown) ∧
    (((Dispatcher.dispatchSources (.plain .sources "" 2)).exec B env r.2).1.toOption.bind
      DispatchResult.sourceChunks).map (List.map EventChunk.chunkText) = some ["walk"] := by
  rw [← JsonModule.citing_eq "no_evidence" (by decide +kernel)]
  intro B env w r
  refine ⟨fun a ha => ?_, by decide +kernel⟩
  have hfacts : (((Dispatcher.citing (.citing "no_evidence")).answerAsk (.plain .ask "walk" 1)).exec
      B env w).1.toOption.map (fun a => (a.fallback, a.citedChunkIds)) =
      some (.noEvidence, ["xx"]) := by decide +kernel
  rw [ha] at hfacts
  obtain ⟨hfallback, hcited⟩ := Prod.mk.inj (Option.some.inj hfacts)
  refine ⟨hfallback, hcited, fun hs => ?_, fun shown hg => ?_⟩
  · rw [AnswerResult.surfaces_iff, hfallback] at hs
    simp at hs
  · have hnil := (hg.ungrounded (by rw [hfallback]; rfl)).1
    rw [hcited] at hnil
    cases hnil

end DiaryMemory
