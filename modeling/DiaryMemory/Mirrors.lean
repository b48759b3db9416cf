import DiaryMemory.Adapters
import DiaryMemory.DateTexts
import DiaryMemory.MockAnswers

/-!
# The mocks mirror the real providers

The mock providers leave their raw output in the shape of the real ones, so the adapters could
read it : the reader of each adapter takes from the raw output of the mock what the mock answered
(`mocks_mirrored`), where the mock answers as a provider may.
-/

namespace DiaryMemory

open JsonText (Value names)

variable {decodeError : String → JsonDecodeError} {repr : Json → String} {reprStr : String → String}

/-- A field that is not there. -/
theorem Fields.Of.none {payload : List (String × Value)} {fields : Fields} {name : String}
    (h : fields.Of payload) (hname : payload.lookup name = .none) :
    List.lookup name fields = .none := by
  rw [h.lookup, hname]
  rfl

theorem ChatRoute.ofValue?_value (route : ChatRoute) : ofValue? route.value = some route := by
  cases route <;> decide

theorem readRoute_written (route : ChatRoute) :
    readRoute (.python decodeError repr reprStr)
      (dumpsSorted true (.dict [("route", .str route.value)])) = .ok route := by
  obtain ⟨fields, hfields, hraw⟩ := @loads_dumpsSorted decodeError repr reprStr
    [("route", .str route.value)] true (by decide : ["route"].Nodup)
  have hroute : List.lookup "route" fields = some (.str route.value) := hfields.str rfl
  rw [readRoute, hraw]
  dsimp only [Json.get?]
  rw [hroute]
  dsimp only
  rw [ChatRoute.ofValue?_value]
  rfl

theorem readOutward_written {query : String} (h : PyText.strip query ≠ "") :
    readOutward (.python decodeError repr reprStr)
      (dumpsSorted true (.dict [("search_query", .str query)])) = .ok (PyText.strip query) := by
  obtain ⟨fields, hfields, hraw⟩ := @loads_dumpsSorted decodeError repr reprStr
    [("search_query", .str query)] true (by decide : ["search_query"].Nodup)
  have hquery : List.lookup "search_query" fields = some (.str query) := hfields.str rfl
  rw [readOutward, hraw]
  dsimp only
  rw [hquery]
  dsimp only
  rw [if_neg h]
  rfl

/-! ## The rewrite -/

/-- The payload of a rewrite. -/
def rewritePayload (query : String) (start stop : Option Date) : List (String × Value) :=
  ("retrieval_query", .str query) :: (boundField "date_from" start ++ boundField "date_to" stop)

theorem lookup_date_from (query : String) (start stop : Option Date) :
    (rewritePayload query start stop).lookup "date_from" = start.map fun d => .str d.isoformat := by
  cases start <;> cases stop <;> rfl

theorem lookup_date_to (query : String) (start stop : Option Date) :
    (rewritePayload query start stop).lookup "date_to" = stop.map fun d => .str d.isoformat := by
  cases start <;> cases stop <;> rfl

theorem nodup_rewritePayload (query : String) (start stop : Option Date) :
    (names (rewritePayload query start stop)).Nodup := by
  have hnodup : ["retrieval_query", "date_from", "date_to"].Nodup := by decide
  refine hnodup.sublist ?_
  cases start <;> cases stop <;> simp [rewritePayload, boundField, names]

/-- A bound is read as it was written. -/
theorem parseIsoDate_bound {payload : List (String × Value)} {fields : Fields} {name : String}
    {bound : Option Date} (rawOutput : String) (h : fields.Of payload)
    (hbound : payload.lookup name = bound.map fun d => .str d.isoformat) :
    parseIsoDate rawOutput (List.lookup name fields) = .ok bound := by
  cases bound with
  | none =>
    rw [h.none hbound]
    rfl
  | some d =>
    rw [h.str hbound, parseIsoDate, fromisoformat_isoformat]
    rfl

/-- A range without bounds is none. -/
def DateRange.bounded (range : DateRange) : Option DateRange :=
  if range.start = none ∧ range.stop = none then none else some range

theorem dateRangeOf_bounds (rawOutput : String) (range : Option DateRange) :
    dateRangeOf rawOutput (range.bind DateRange.start) (range.bind DateRange.stop) =
      .ok (range.bind DateRange.bounded) := by
  cases range with
  | none => rfl
  | some range =>
    change dateRangeOf rawOutput range.start range.stop = .ok range.bounded
    unfold dateRangeOf DateRange.bounded
    split
    · rfl
    · rw [dif_pos range.ordered]
      rfl

theorem readRewrite_written {query : String} (h : PyText.strip query ≠ "")
    (range : Option DateRange) :
    readRewrite (.python decodeError repr reprStr) (dumpsSorted true (.dict
      (rewritePayload query (range.bind DateRange.start) (range.bind DateRange.stop)))) =
      .ok (PyText.strip query, range.bind DateRange.bounded) := by
  obtain ⟨fields, hfields, hraw⟩ := @loads_dumpsSorted decodeError repr reprStr _ true
    (nodup_rewritePayload query (range.bind DateRange.start) (range.bind DateRange.stop))
  have hquery : List.lookup "retrieval_query" fields = some (.str query) := hfields.str rfl
  have hstart := fun raw => parseIsoDate_bound raw hfields (lookup_date_from query _ _)
  have hstop := fun raw => parseIsoDate_bound raw hfields (lookup_date_to query _ _)
  rw [readRewrite, hraw]
  dsimp only
  rw [hquery]
  dsimp only
  rw [if_neg h, hstart, hstop]
  change (dateRangeOf _ _ _ >>= fun dateRange => pure (PyText.strip query, dateRange)) = _
  rw [dateRangeOf_bounds]
  rfl

/-! ## The results -/

/-- An entry is read as the excerpt it was written for, if that can be cited. -/
theorem readEntry_entry (body : String) (e : KnowledgeExcerpt) :
    readEntry body e.entry.sortKeys.decoded =
      if e.ref = "" then .error (.providerOutput .knowledge body) else .ok e := by
  obtain ⟨fields, hfields, hdecoded⟩ := @decoded_sortKeys
    [("url", .str e.ref), ("title", .str e.title), ("content", .str e.text)]
    (by decide : ["url", "title", "content"].Nodup)
  have hurl : List.lookup "url" fields = some (.str e.ref) := hfields.str rfl
  have htitle : List.lookup "title" fields = some (.str e.title) := hfields.str rfl
  have hcontent : List.lookup "content" fields = some (.str e.text) := hfields.str rfl
  rw [KnowledgeExcerpt.entry, hdecoded, readEntry, hurl, htitle, hcontent]
  rfl

/-- Entries are read as the excerpts they were written for, if all can be cited. -/
theorem mapM_readEntry (body : String) (es : List KnowledgeExcerpt) {found : List KnowledgeExcerpt} :
    (es.map fun e => e.entry.sortKeys.decoded).mapM (readEntry body) = .ok found ↔
      found = es ∧ ∀ e ∈ es, e.ref ≠ "" := by
  induction es generalizing found with
  | nil =>
    rw [List.map_nil, List.mapM_nil]
    exact ⟨fun h => ⟨(Except.ok.inj h).symm, nofun⟩, fun h => congrArg Except.ok h.1.symm⟩
  | cons e es ih =>
    rw [List.map_cons, List.mapM_cons, readEntry_entry]
    by_cases he : e.ref = ""
    · rw [if_pos he]
      refine ⟨nofun, fun h => absurd he (h.2 e List.mem_cons_self)⟩
    · rw [if_neg he]
      constructor
      · intro h
        obtain ⟨first, hfirst, hbind⟩ := bind_eq_ok.mp h
        obtain ⟨rest, hrest, hcons⟩ := bind_eq_ok.mp hbind
        cases hfirst
        obtain ⟨rfl, hall⟩ := ih.mp hrest
        exact ⟨(Except.ok.inj hcons).symm, List.forall_mem_cons.mpr ⟨he, hall⟩⟩
      · rintro ⟨rfl, h⟩
        have hrest := (@ih es).mpr ⟨rfl, (List.forall_mem_cons.mp h).2⟩
        exact bind_eq_ok.mpr ⟨e, rfl, bind_eq_ok.mpr ⟨es, hrest, rfl⟩⟩

theorem readResults_written (query : String) (excerpts : List KnowledgeExcerpt) (maxResults : Nat)
    {found : List KnowledgeExcerpt} :
    readResults (.python decodeError repr reprStr) maxResults (dumpsSorted false (.dict
      [("query", .str query), ("results", .list (excerpts.map KnowledgeExcerpt.entry))])) =
        .ok found ↔ found = excerpts.take maxResults ∧ ∀ e ∈ excerpts.take maxResults, e.ref ≠ "" := by
  obtain ⟨fields, hfields, hraw⟩ := @loads_dumpsSorted decodeError repr reprStr
    [("query", .str query), ("results", .list (excerpts.map KnowledgeExcerpt.entry))] false
    (by decide : ["query", "results"].Nodup)
  have hresults : List.lookup "results" fields =
      some (.list (excerpts.map fun e => e.entry.sortKeys.decoded)) := by
    rw [hfields.lookup]
    change some (Value.list (excerpts.map KnowledgeExcerpt.entry)).sortKeys.decoded = _
    rw [Value.sortKeys, Value.decoded, decodedItems_eq, JsonText.sortItems_eq, List.map_map,
      List.map_map]
    rfl
  rw [readResults, hraw]
  dsimp only
  rw [hresults]
  dsimp only
  rw [← List.map_take]
  exact mapM_readEntry _ _

/-! ## The mirrors -/

/-- The readers of the adapters take from the raw output of the mocks what the mocks answered : the
route; a query that is not blank, without the white space around it, and the range, if it has a
bound; the first excerpts, exactly where each of them has an address. -/
theorem mocks_mirrored (decodeError : String → JsonDecodeError) (repr : Json → String)
    (reprStr : String → String) :
    let json := JsonModule.python decodeError repr reprStr
    (∀ (client : MockRouteClassifier) (question : String),
      readRoute json (client.classify question).rawOutput = .ok (client.classify question).route) ∧
    (∀ (client : MockQueryRewriter) (question : String),
      let r := client.rewrite question
      PyText.strip r.retrievalQuery ≠ "" → readRewrite json r.rawOutput =
        .ok (PyText.strip r.retrievalQuery, r.dateRange.bind DateRange.bounded)) ∧
    (∀ (client : MockOutwardRewriter) (question : String),
      let r := client.rewriteOutward question
      PyText.strip r.searchQuery ≠ "" →
        readOutward json r.rawOutput = .ok (PyText.strip r.searchQuery)) ∧
    ∀ (source : MockKnowledgeSource) (query : String) (maxResults : Nat)
      (found : List KnowledgeExcerpt),
      readResults json maxResults (source.search query).rawOutput = .ok found ↔
        found = (source.search query).excerpts.take maxResults ∧ ∀ e ∈ found, e.ref ≠ "" := by
  intro json
  refine ⟨fun client question => readRoute_written _,
    fun client question h => readRewrite_written h client.dateRange,
    fun client question h => readOutward_written h, fun source query maxResults found => ?_⟩
  refine (readResults_written query source.excerpts maxResults).trans (and_congr_right fun h => ?_)
  rw [h]

end DiaryMemory
