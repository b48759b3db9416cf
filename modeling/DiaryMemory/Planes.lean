import DiaryMemory.Rendering

/-!
# The planes of a chat reply

The answer of a mixed route keeps its planes apart (`AnswerResult.Planes`) : its notes text is
there exactly with citations, of chunks of its context, and its knowledge text exactly with
references, to excerpts its search returned. The reply renders a segment for each plane that is
not empty, after a header that says how well the notes cover the question (`MixedReply`). A reply
that failed is a fixed text (`FixedReply`).

What was searched and replied is what the chat itself heard, call by call (`World.Transcribed`).
-/

namespace DiaryMemory

open Pact

/-! ## What a run hears -/

section Hearing

variable {kind : StoreKind} {engine : SearchEngine} {env : Env}
  {w w' : World (kind.backend engine).State}

/-- Between the worlds the call was made, and a provider answered it with the reply : the place of
the call in the log is the moment of the answer. -/
def World.Transcribed {S : Type} (env : Env) (w w' : World S) : (c : Call) → Reply c → Prop
  | .sys (.complete prompt), r => ∃ n, w.tick ≤ n ∧
    w'.log[n]?.map Event.call = some (.sys (.complete prompt)) ∧ r = env.complete n prompt
  | .sys (.search query), r => ∃ n, w.tick ≤ n ∧
    w'.log[n]?.map Event.call = some (.sys (.search query)) ∧ r = env.search n query
  | _, _ => True

/-- Every call is allowed, and the replies are those that were heard. -/
def hearing (heard : (c : Call) → Reply c → Prop) : Pact Call Reply := ⟨fun _ => True, heard⟩

theorem log_run {α : Type} : ∀ (p : Prog Call Reply α) (v : World (kind.backend engine).State),
    v.log <+: (p.run (serve (kind.backend engine) env) v).2.log
  | .ret _, _ => List.prefix_rfl
  | .call c k, v => (log_serve c v ▸ List.prefix_append _ _ : v.log <+: _).trans (log_run (k _) _)

theorem heard_serve {c : Call} {v : World (kind.backend engine).State} (hv : w.log <+: v.log)
    (hlog : (serve (kind.backend engine) env c v).2.log <+: w'.log) :
    w.Transcribed env w' c (serve (kind.backend engine) env c v).1 := by
  have hplace : w'.log[v.tick]?.map Event.call = some c := by
    rw [log_serve] at hlog
    obtain ⟨more, hmore⟩ := hlog
    rw [← hmore, World.tick, List.append_assoc, List.getElem?_append_right le_rfl, Nat.sub_self]
    rfl
  cases c with
  | repo c => trivial
  | sys c =>
    cases c with
    | complete | search => exact ⟨v.tick, hv.length_le, hplace, rfl⟩
    | _ => trivial

/-- What a procedure ensures of the replies it is given holds of a run, for those it heard. -/
theorem Pact.Ensures.exec_heard {α : Type} {p : Proc α} {Q : α → Prop} {a : α}
    (h : (hearing (w.Transcribed env w')).Ensures p Q)
    (ha : p.exec (kind.backend engine) env w = (.ok a, w')) : Q a := by
  have hrun : ∀ (q : Prog Call Reply (Except Exn α)) (v : World (kind.backend engine).State),
      w.log <+: v.log → (q.run (serve (kind.backend engine) env) v).2 = w' →
      q.wp (hearing (w.Transcribed env w')).contract (fun r _ => ∀ a, r = .ok a → Q a) () →
      ∀ a, (q.run (serve (kind.backend engine) env) v).1 = .ok a → Q a := by
    intro q
    induction q with
    | ret r => exact fun v _ _ hq => hq
    | call c k ih =>
      intro v hv hlast hq
      have hnext : (serve (kind.backend engine) env c v).2.log <+: w'.log :=
        hlast ▸ log_run (k _) _
      refine ih _ _ (hv.trans (log_serve c v ▸ List.prefix_append _ _)) hlast ?_
      exact hq.2 _ _ (heard_serve hv hnext)
  exact hrun p.run w List.prefix_rfl (congrArg Prod.snd ha) h.keeps a (congrArg Prod.fst ha)

end Hearing

/-! ## Planes -/

/-- What the provider replied was parsed, and the answer holds the parsed texts and citations. -/
inductive ParsedReply (heard : (c : Call) → Reply c → Prop) (json : JsonModule) (a : AnswerResult) :
    Prop
  | notesPlusModel {prompt : AnswerPrompt} {response : ChatResponse} {context : AnswerContext}
      {parsed : NotesPlusModelAnswer} (reply : heard (.sys (.complete prompt)) (.ok response))
      (shown : a.context = some context)
      (parse : parseNotesPlusModelAnswer json response.rawText context = .ok parsed)
      (texts : a.answerText = orNone parsed.notesText ∧ a.knowledgeText = none ∧
        a.modelText = some parsed.modelText)
      (cited : a.citedChunkIds = parsed.citedChunkIds ∧ a.knowledgeRefs = []) :
      ParsedReply heard json a
  | notesPlusKnowledge {prompt : AnswerPrompt} {response : ChatResponse} {context : AnswerContext}
      {query : String} {result : KnowledgeResult} {parsed : NotesPlusKnowledgeAnswer}
      (reply : heard (.sys (.complete prompt)) (.ok response)) (shown : a.context = some context)
      (found : result.excerpts = [] ∨ heard (.sys (.search query)) (.ok result))
      (parse : parseNotesPlusKnowledgeAnswer json response.rawText context
        (result.excerpts.map KnowledgeExcerpt.ref) = .ok parsed)
      (texts : a.answerText = orNone parsed.notesText ∧
        a.knowledgeText = orNone parsed.knowledgeText ∧ a.modelText = some parsed.modelText)
      (cited : a.citedChunkIds = parsed.citedChunkIds ∧
        a.knowledgeRefs = parsed.citedKnowledgeRefs) :
      ParsedReply heard json a

/-- The planes of the answer of a mixed route : each has a text exactly when it has citations, of
what was retrieved and of what the search returned. -/
structure AnswerResult.Planes (a : AnswerResult) (heard : (c : Call) → Reply c → Prop) : Prop where
  noEvidence : a.fallback = .noEvidence ↔ a.citedChunkIds = []
  notesText : orEmpty a.answerText = "" ↔ a.citedChunkIds = []
  webText : orEmpty a.knowledgeText = "" ↔ a.knowledgeRefs = []
  inContext : ∀ id ∈ a.citedChunkIds, ∃ context, a.context = some context ∧ id ∈ context.chunkIds
  returned : ∀ ref ∈ a.knowledgeRefs, ∃ query result,
    heard (.sys (.search query)) (.ok result) ∧ ref ∈ result.excerpts.map KnowledgeExcerpt.ref

section Planes

variable {heard : (c : Call) → Reply c → Prop}

/-- The grades of a generation that failed. -/
def FallbackMode.isFailure : FallbackMode → Bool
  | .providerUnavailable | .parseFailure => true
  | _ => false

theorem orEmpty_orNone (text : String) : orEmpty (orNone text) = text := by
  unfold orNone
  split
  · next h => exact h.symm
  · rfl

theorem notesMarkerToFallback_eq_noEvidence {marker : NotesUncertainty} :
    notesMarkerToFallback marker = .noEvidence ↔ marker = .noEvidence := by
  cases marker <;> simp [notesMarkerToFallback]

/-- A generation that did not fail comes from a reply that was parsed. -/
theorem Generation.parsed_of_grade {α : Type} {family : AnswerFamily}
    {parse : String → Except Exn α} {failed : Generation} {parsed : ChatResponse → α → Generation}
    {reply : Except Exn ChatResponse} {g : Generation}
    (h : Generation.grade family parse failed parsed reply = .ok g)
    (hf : g.fallback.isFailure = false) :
    ∃ response a, reply = .ok response ∧ parse response.rawText = .ok a ∧ g = parsed response a := by
  unfold grade at h
  split at h
  · cases h
    cases hf
  · cases h
  · next response =>
    split at h
    · next a hparse =>
      cases h
      exact ⟨response, a, rfl, hparse, rfl⟩
    · split at h
      · cases h
        cases hf
      · cases h
    · cases h

theorem returned_of_found {query : String} {result : KnowledgeResult}
    (h : result.excerpts = [] ∨ heard (.sys (.search query)) (.ok result)) {ref : String}
    (href : ref ∈ result.excerpts.map KnowledgeExcerpt.ref) : ∃ query result,
      heard (.sys (.search query)) (.ok result) ∧
        ref ∈ result.excerpts.map KnowledgeExcerpt.ref := by
  rcases h with hnone | hsearch
  · rw [hnone] at href
    cases href
  · exact ⟨query, result, hsearch, href⟩

/-- The planes of an answer that holds nothing. -/
theorem AnswerResult.Planes.bare {queryText : String} :
    ({ fallback := .noEvidence, queryText : AnswerResult }).Planes heard where
  noEvidence := iff_of_true rfl rfl
  notesText := iff_of_true rfl rfl
  webText := iff_of_true rfl rfl
  inContext := nofun
  returned := nofun

/-- What the answer of a mixed route that did not fail holds. -/
structure Parsed (heard : (c : Call) → Reply c → Prop) (json : JsonModule) (a : AnswerResult) :
    Prop where
  planes : a.Planes heard
  reply : ParsedReply heard json a

theorem planes_notesPlusModel {service : RoutedChatService} {context : AnswerContext}
    {prompt : AnswerPrompt} {reply : Except Exn ChatResponse} {g : Generation} {queryText : String}
    {merged : List FusedHit} (hreply : heard (.sys (.complete prompt)) reply)
    (h : service.gradeNotesPlusModel context reply = .ok g) (hf : g.fallback.isFailure = false) :
    Parsed heard service.json (g.result queryText context merged) ∧
      (g.result queryText context merged).knowledgeText = none := by
  obtain ⟨response, parsed, rfl, hparse, rfl⟩ := Generation.parsed_of_grade h hf
  obtain ⟨hcontext, hmarker, htext⟩ := NotesPlusModelAnswer.grounded hparse
  refine ⟨⟨⟨notesMarkerToFallback_eq_noEvidence.trans hmarker, ?_, iff_of_true rfl rfl,
    fun id hid => ⟨context, rfl, hcontext hid⟩, nofun⟩,
    .notesPlusModel hreply rfl hparse ⟨rfl, rfl, rfl⟩ ⟨rfl, rfl⟩⟩, rfl⟩
  exact (Eq.congr_left (orEmpty_orNone parsed.notesText)).trans htext

theorem planes_notesPlusKnowledge {service : RoutedChatService} {context : AnswerContext}
    {prompt : AnswerPrompt} {reply : Except Exn ChatResponse} {g : Generation} {queryText : String}
    {merged : List FusedHit} {query : String} {result : KnowledgeResult}
    (hreply : heard (.sys (.complete prompt)) reply)
    (hfound : result.excerpts = [] ∨ heard (.sys (.search query)) (.ok result))
    (h : service.gradeNotesPlusKnowledge context (result.excerpts.map KnowledgeExcerpt.ref) reply =
      .ok g) (hf : g.fallback.isFailure = false) :
    Parsed heard service.json (g.result queryText context merged) := by
  obtain ⟨response, parsed, rfl, hparse, rfl⟩ := Generation.parsed_of_grade h hf
  obtain ⟨⟨hcontext, hmarker, htext⟩, hrefs, hknowledge⟩ :=
    NotesPlusKnowledgeAnswer.grounded hparse
  refine ⟨⟨notesMarkerToFallback_eq_noEvidence.trans hmarker, ?_, ?_,
    fun id hid => ⟨context, rfl, hcontext hid⟩, fun ref href => returned_of_found hfound (hrefs href)⟩,
    .notesPlusKnowledge hreply rfl hfound hparse ⟨rfl, rfl, rfl⟩ ⟨rfl, rfl⟩⟩
  · exact (Eq.congr_left (orEmpty_orNone parsed.notesText)).trans htext
  · exact (Eq.congr_left (orEmpty_orNone parsed.knowledgeText)).trans hknowledge

/-- What a route answers, if it does not fail. -/
def RouteParsed (heard : (c : Call) → Reply c → Prop) (json : JsonModule) (question : String)
    (route : ChatRoute) (routed : RoutedChatService.Routed) : Prop :=
  route = .notesPlusModel ∨ route = .notesPlusKnowledge →
    routed.answer.fallback.isFailure = false →
    routed.answer.Planes heard ∧ (ParsedReply heard json routed.answer ∨
      routed.answer = { fallback := .noEvidence, queryText := question }) ∧
    (route = .notesPlusModel → routed.answer.knowledgeText = none)

theorem ensures_finishMixed (service : RoutedChatService) (query : Query)
    (candidates : RetrievedCandidates) (context : AnswerContext) (promptVersion : String)
    (g : Generation) : (hearing heard).Ensures
      (service.finishMixed query candidates context promptVersion g)
      fun a => a = g.result query.queryText context candidates.merged :=
  ensures_skip (fun _ => trivial) fun _ => ensures_skip (fun _ => trivial) fun _ =>
    ensures_skip (fun _ => trivial) fun _ => ensures_pure rfl

theorem ensures_parsed (service : RoutedChatService) (message : InboundMessage) (question : String)
    (subjectScope : Option String) (route : ChatRoute) : (hearing heard).Ensures
      (service.answerBy message question subjectScope route)
      (RouteParsed heard service.json question route) := by
  have hopen : ∀ c, (hearing heard).asks c := fun _ => trivial
  have hbare : RouteParsed heard service.json question route
      (RoutedChatService.retrievalUnavailable question) :=
    fun _ _ => ⟨.bare, .inr rfl, fun _ => rfl⟩
  cases route with
  | modelOnly =>
    exact (ensures_any hopen _).imp fun _ _ hmixed => absurd hmixed (by decide)
  | notesLookup =>
    exact (ensures_any hopen _).imp fun _ _ hmixed => absurd hmixed (by decide)
  | notesPlusModel =>
    refine ensures_orUnavailable question (ensures_bind (fun r =>
      r.1.fallback.isFailure = false → Parsed heard service.json r.1 ∧ r.1.knowledgeText = none) ?_
      fun r hr => ensures_pure fun _ hf => ?_) hbare
    · refine ensures_skip hopen fun _ => ensures_skip hopen fun _ => ensures_skip hopen fun _ =>
        ensures_skip hopen fun candidates => ?_
      refine ensures_skip hopen fun prompt => ensures_bind _ (ensures_completed trivial)
        fun reply hreply => ensures_bind _ (ensures_ofExcept _) fun g hg =>
          ensures_bind _ (ensures_finishMixed ..) fun a ha => ensures_pure fun hf => ?_
      subst ha
      exact planes_notesPlusModel hreply hg hf
    · exact ⟨(hr hf).1.planes, .inl (hr hf).1.reply, fun _ => (hr hf).2⟩
  | notesPlusKnowledge =>
    refine ensures_orUnavailable question (ensures_bind (fun r =>
      r.1.fallback.isFailure = false → Parsed heard service.json r.1) ?_
      fun r hr => ensures_pure fun _ hf => ?_) hbare
    · unfold RoutedChatService.answerNotesPlusKnowledge
      split
      · exact ensures_throw _
      refine ensures_skip hopen fun _ => ensures_skip hopen fun _ => ensures_skip hopen fun _ =>
        ensures_skip hopen fun candidates => ensures_skip hopen fun _ =>
          ensures_bind _ (ensures_found trivial) fun found hfound => ?_
      refine ensures_bind _ (ensures_ofExcept _) fun prompt hprompt =>
        ensures_bind _ (ensures_completed trivial) fun reply hreply =>
          ensures_bind _ (ensures_ofExcept _) fun g hg =>
            ensures_bind _ (ensures_finishMixed ..) fun a ha => ensures_pure fun hf => ?_
      subst ha
      obtain ⟨_, -, hprompt⟩ := ok_of_bind hprompt
      cases hprompt
      exact planes_notesPlusKnowledge hreply hfound hg hf
    · exact ⟨(hr hf).planes, .inl (hr hf).reply, nofun⟩

/-! ## Replies -/

/-- How well the notes cover the question, where that has to be said. -/
def headerSegment (a : AnswerResult) : List String :=
  if a.citedChunkIds = [] then [headerChatNoNotes]
  else if a.fallback = .weakEvidence then [headerChatWeakNotes] else []

/-- The notes, where chunks are cited. -/
def notesSegment (a : AnswerResult) : List String :=
  if a.citedChunkIds = [] then [] else [labelChatNotes ++ "\n" ++ orEmpty a.answerText]

/-- The web, where references are cited, with the references verbatim. -/
def webSegment (a : AnswerResult) : List String :=
  if a.knowledgeRefs = [] then []
  else [labelChatWeb ++ "\n" ++ orEmpty a.knowledgeText ++
    String.join (a.knowledgeRefs.map fun ref => "\n" ++ ref)]

/-- The model, where it said something, after its label. -/
def modelSegment (a : AnswerResult) : List String :=
  if orEmpty a.modelText = "" then []
  else [trailerModelKnowledge ++ "\n" ++ orEmpty a.modelText]

/-- The reply consists of the segments of its planes. -/
def MixedReply (a : AnswerResult) (reply : String) : Prop :=
  reply = "\n\n".intercalate (headerSegment a ++ notesSegment a ++ webSegment a ++ modelSegment a)

/-- The reply says only that the provider failed. -/
def FixedReply (reply : String) : Prop :=
  ∃ text ∈ [replyProviderUnavailable, replyParseFailure],
    reply = text ∨ reply = text ++ "\n\n" ++ trailerChatRerouted

theorem notesParts_eq {a : AnswerResult} (h : a.Planes heard) :
    notesParts a = headerSegment a ++ notesSegment a := by
  unfold notesParts headerSegment notesSegment
  by_cases hcited : a.citedChunkIds = []
  · rw [if_pos (h.noEvidence.mpr hcited), if_pos hcited, if_pos hcited, List.append_nil]
  · rw [if_neg fun hf => hcited (h.noEvidence.mp hf), if_neg hcited, if_neg hcited]

theorem webParts_eq {a : AnswerResult} (h : a.Planes heard) : webParts a = webSegment a := by
  unfold webParts webSegment
  by_cases hrefs : a.knowledgeRefs = []
  · rw [if_pos hrefs, h.webText.mpr hrefs]
    rfl
  · rw [if_neg hrefs]
    have htext : orEmpty a.knowledgeText ≠ "" := fun he => hrefs (h.webText.mp he)
    split
    · next he => exact absurd he htext
    · rfl

theorem modelParts_eq (a : AnswerResult) : modelParts a = modelSegment a := by
  unfold modelParts modelSegment
  split
  · next he => rw [if_pos he]
  · next he => rw [if_neg he]

theorem formatMixedReply_eq {parts : AnswerResult → List String} {a : AnswerResult}
    (hf : a.fallback.isFailure = false) :
    formatMixedReply parts a = "\n\n".intercalate (parts a) := by
  unfold formatMixedReply
  rw [if_neg]
  rintro (h | h)
  · rw [h] at hf
    cases hf
  · rw [h] at hf
    cases hf

theorem formatAnswerReply_failed {a : AnswerResult} (hf : a.fallback.isFailure = true) :
    formatAnswerReply a ∈ [replyProviderUnavailable, replyParseFailure] := by
  unfold formatAnswerReply
  cases h : a.fallback <;> rw [h] at hf <;> simp [FallbackMode.isFailure] at hf ⊢

/-- On every route, a reply that failed shows no text of the provider. -/
theorem formatChatReply_failed {res : RoutedChatResult}
    (hf : res.answer.fallback.isFailure = true) : FixedReply (formatChatReply res) := by
  have hfixed := formatAnswerReply_failed hf
  have hmixed : ∀ parts, formatMixedReply parts res.answer = formatAnswerReply res.answer := by
    intro parts
    unfold formatMixedReply
    rw [if_pos]
    cases h : res.answer.fallback <;> rw [h] at hf <;> simp [FallbackMode.isFailure] at hf ⊢
  unfold formatChatReply
  cases res.effectiveRoute with
  | notesPlusModel => exact ⟨_, hfixed, .inl (hmixed _)⟩
  | notesPlusKnowledge => exact ⟨_, hfixed, .inl (hmixed _)⟩
  | modelOnly =>
    refine ⟨_, hfixed, .inl (if_neg fun h => ?_)⟩
    rw [h] at hf
    cases hf
  | notesLookup =>
    dsimp only
    split
    · exact ⟨_, hfixed, .inr rfl⟩
    · exact ⟨_, hfixed, .inl rfl⟩

/-- A mixed reply that did not fail renders its planes. -/
theorem formatChatReply_mixed {res : RoutedChatResult} (h : res.answer.Planes heard)
    (hf : res.answer.fallback.isFailure = false)
    (hmixed : res.effectiveRoute = .notesPlusModel ∨ res.effectiveRoute = .notesPlusKnowledge)
    (hmodel : res.effectiveRoute = .notesPlusModel → res.answer.knowledgeText = none) :
    MixedReply res.answer (formatChatReply res) := by
  unfold MixedReply formatChatReply
  rcases hmixed with hroute | hroute
  · have hrefs : res.answer.knowledgeRefs = [] := h.webText.mp (by rw [hmodel hroute]; rfl)
    have hweb : webSegment res.answer = [] := if_pos hrefs
    rw [hroute]
    dsimp only
    rw [formatNotesPlusModelReply, formatMixedReply_eq hf, notesParts_eq h, modelParts_eq, hweb,
      List.append_nil]
  · rw [hroute]
    dsimp only
    rw [formatNotesPlusKnowledgeReply, formatMixedReply_eq hf, notesParts_eq h, webParts_eq h,
      modelParts_eq]

end Planes

/-! ## After every run -/

/-- After every run, a chat that returns renders its planes apart on the mixed routes, and no text
of the provider where that failed. -/
theorem chat_planes (kind : StoreKind) (engine : SearchEngine) (env : Env) (ops : List Operation)
    (service : RoutedChatService) (message : InboundMessage) (subjectScope : Option String)
    (res : RoutedChatResult) :
    let B := kind.backend engine
    let w := runAll B env (World.initial kind engine) ops
    let r := (service.chat message subjectScope).exec B env w
    r.1 = .ok res →
    (res.answer.fallback.isFailure = true → FixedReply (formatChatReply res)) ∧
    (res.effectiveRoute = .notesPlusModel ∨ res.effectiveRoute = .notesPlusKnowledge →
      res.answer.fallback.isFailure = false → res.answer.Planes (w.Transcribed env r.2) ∧
        (ParsedReply (w.Transcribed env r.2) service.json res.answer ∨
          res.answer = { fallback := .noEvidence, queryText := PyText.strip message.payload }) ∧
        MixedReply res.answer (formatChatReply res)) := by
  intro B w r hr
  refine ⟨formatChatReply_failed, fun hmixed hf => ?_⟩
  have hchat : (hearing (w.Transcribed env r.2)).Ensures (service.chat message subjectScope) _ :=
    ensures_chat (fun _ _ => trivial) fun _ route => ensures_parsed service message _ _ route
  obtain ⟨-, -, routed, hparsed, hanswer⟩ := hchat.exec_heard (Prod.ext hr rfl)
  rw [hanswer] at hf ⊢
  obtain ⟨hplanes, hreply, hmodel⟩ := hparsed hmixed hf
  refine ⟨hplanes, hreply, ?_⟩
  rw [← hanswer] at hplanes hf hmodel ⊢
  exact formatChatReply_mixed hplanes hf hmixed hmodel

/-- An answer that cites one chunk and one excerpt. -/
def mixedText : String :=
  "\x7b\"notes_text\": \"a walk\", \"cited_chunk_ids\": [\"xx\"], \"model_text\": \"\", " ++
    "\"notes_uncertainty\": \"confident\", \"knowledge_text\": \"walks\", " ++
    "\"cited_knowledge_refs\": [\"page\"]\x7d"

/-- It decodes to this object. -/
theorem JsonModule.loads_mixed : standard.loads mixedText =
    .ok (.dict [("notes_text", .str "a walk"), ("cited_chunk_ids", .list [.str "xx"]),
      ("model_text", .str ""), ("notes_uncertainty", .str "confident"),
      ("knowledge_text", .str "walks"), ("cited_knowledge_refs", .list [.str "page"])]) :=
  standard_loads (by decide +kernel : JsonText.dumps {} (.dict [("notes_text", .str "a walk"),
    ("cited_chunk_ids", .list [.str "xx"]), ("model_text", .str ""),
    ("notes_uncertainty", .str "confident"), ("knowledge_text", .str "walks"),
    ("cited_knowledge_refs", .list [.str "page"])]) = mixedText) rfl

/-- Providers that lead to it. -/
def Env.mixed : Env :=
  { Env.steady with
    classify := fun _ _ => .ok ⟨.notesPlusKnowledge, "", "model", 0⟩
    search := fun _ _ => .ok ⟨[⟨"page", "a page", "about walks"⟩], "", 0⟩
    complete := fun _ _ => .ok ⟨mixedText, "model", [], 0⟩ }

/-- A chat whose reply has a segment from the notes and one from the web. -/
theorem chat_planes_mixed :
    let B := StoreKind.mock.backend .plain
    let service : RoutedChatService :=
      ⟨"model", ⟨⟨"model", 1⟩, "chat", .standard, 5, 20, by decide⟩, "chat", none, some "source", none⟩
    let w := runAll B .mixed (World.initial .mock .plain)
      [.ingest ⟨some ⟨"model", 1⟩⟩ (.plain .note "2026-05-09\nwalk" 0)]
    let r := (service.chat (.plain .chat "walk" 1) none).exec B .mixed w
    ∃ res, r.1 = .ok res ∧
      formatChatReply res = "From your saved notes:\na walk\n\nFrom the web:\nwalks\npage" ∧
      res.answer.Planes (w.Transcribed .mixed r.2) ∧ MixedReply res.answer (formatChatReply res) := by
  rw [← JsonModule.first_eq JsonModule.loads_mixed]
  intro B service w r
  have hfacts : r.1.toOption.map
      (fun res => (res.effectiveRoute, res.answer.fallback, formatChatReply res)) =
      some (.notesPlusKnowledge, .none,
        "From your saved notes:\na walk\n\nFrom the web:\nwalks\npage") := by
    decide +kernel
  cases hr : r.1 with
  | error e =>
    rw [hr] at hfacts
    cases hfacts
  | ok res =>
    rw [hr] at hfacts
    obtain ⟨hroute, hrest⟩ := Prod.mk.inj (Option.some.inj hfacts)
    obtain ⟨hfallback, htext⟩ := Prod.mk.inj hrest
    obtain ⟨hplanes, -, hreply⟩ := (chat_planes .mock .plain .mixed
      [.ingest ⟨some ⟨"model", 1⟩⟩ (.plain .note "2026-05-09\nwalk" 0)] service
      (.plain .chat "walk" 1) none res hr).2 (.inr hroute) (by rw [hfallback]; rfl)
    exact ⟨res, rfl, htext, hplanes, hreply⟩

end DiaryMemory
