import DeclarativeSql.Proofs.Query.Nesting
import DeclarativeSql.Proofs.Query.Reload
import DeclarativeSql.Proofs.Query.Survival

/-!
# Loading what the check accepts

A level of a predicate counts once for the check and twice for the reader of texts, as an object
and an array. So the reader is the first to refuse deep predicates, under the default limit
already: `accepted_queries_load_unless_too_deep` says which of the accepted queries are loaded
again from their text and which are not.
-/

namespace DeclarativeSql

namespace Query

theorem ofDocument_document {query : Query} (h : query.document.problems limit = []) :
    ofDocument limit query.document = .ok query := by
  obtain ⟨sql | composition, description⟩ := query <;>
    simp only [ofDocument, h] <;> rfl

theorem decodeText_text {query : Query} (h : query.toJson.NumbersReadBack) :
    decodeText Document.ofNode query.text = Document.ofNode (query.toJson.nodeAt 0) := by
  rw [decodeText, text, Json.read_compact h]
  dsimp only
  cases Document.ofNode (query.toJson.nodeAt 0) <;> rfl

theorem intervalReadsBack_of_survives {query : Query} (h : query.document.Survives) :
    query.IntervalReadsBack := by
  obtain ⟨sql | composition, description⟩ := query
  · nofun
  · rintro _ ⟨⟩
    exact (h composition rfl).parameters.interval

/-- Nothing may be cut out of the text, and the timestamps have to be found again. -/
theorem ofText_text_eq_ok {query : Query} (hp : query.document.problems limit = [])
    (hn : query.toJson.NumbersReadBack) :
    ofText limit query.text = .ok query ↔
      query.toJson.depth ≤ Node.maxNesting ∧ query.IntervalReadsBack := by
  rw [ofText_ok, decodeText_text hn, and_iff_left (ofDocument_document hp)]
  constructor
  · intro h
    exact ⟨depth_le_of_ofNode h, intervalReadsBack_of_survives (Document.survives_of_ofNode h)⟩
  · rintro ⟨hd, hi⟩
    rw [Json.nodeAt_eq_node _ 0 (by rwa [Nat.zero_add])]
    exact (survives hp hn hi).ofNode_toJson

theorem ofText_text_malformed (limit : Nat) {query : Query}
    (hn : query.toJson.NumbersReadBack) (hd : Node.maxNesting < query.toJson.depth) :
    ∃ error, ofText limit query.text = .error [.malformed error] := by
  rw [ofText, decodeText_text hn]
  cases h : Document.ofNode (query.toJson.nodeAt 0) with
  | error error => exact ⟨error, rfl⟩
  | ok document => exact absurd (depth_le_of_ofNode h) (Nat.not_le.mpr hd)

/-- Bounds on the levels of row filters and of the conditions in columns. -/
structure NoHigher (inFilters inColumns : Nat) (query : Query) : Prop where
  filters : ∀ composition ∈ query.composition?, ∀ filter ∈ composition.parameters.rowFilters,
    filter.predicate.height ≤ inFilters
  conditions : ∀ composition ∈ query.composition?, ∀ predicate ∈ composition.columns.conditions,
    predicate.height ≤ inColumns

theorem NoHigher.depth_le {query : Query} (h : query.NoHigher 61 60) :
    query.toJson.depth ≤ Node.maxNesting := by
  have hm : Node.maxNesting = 120 + 7 := rfl
  rw [hm, depth_toJson_le]
  intro composition hc
  constructor
  · intro predicate hp
    have := h.conditions composition hc predicate hp
    have := predicate.depth_toJson
    omega
  · intro filter hf
    have := h.filters composition hc filter hf
    have := filter.predicate.depth_filterToJson
    omega

/-- One level more is possible, as the deepest conditions may be without options. -/
theorem NoHigher.of_depth_le {query : Query} (h : query.toJson.depth ≤ Node.maxNesting) :
    query.NoHigher 62 61 := by
  have hm : Node.maxNesting = 120 + 7 := rfl
  rw [hm, depth_toJson_le] at h
  constructor
  · intro composition hc filter hf
    have := (h composition hc).2 filter hf
    have := filter.predicate.depth_filterToJson
    omega
  · intro composition hc predicate hp
    have := (h composition hc).1 predicate hp
    have := predicate.depth_toJson
    omega

end Query

theorem accepted_queries_load_unless_too_deep {limit : Nat} {query : Query}
    (hp : query.document.problems limit = []) (hn : query.toJson.NumbersReadBack) :
    (Query.ofText limit query.text = .ok query ↔
      query.toJson.depth ≤ Node.maxNesting ∧ query.IntervalReadsBack) ∧
    (query.NoHigher 61 60 → query.IntervalReadsBack →
      Query.ofText limit query.text = .ok query) ∧
    (¬ query.NoHigher 62 61 →
      ∃ error, Query.ofText limit query.text = .error [.malformed error]) := by
  refine ⟨Query.ofText_text_eq_ok hp hn, fun h hi => ?_, fun h => ?_⟩
  · exact (Query.ofText_text_eq_ok hp hn).mpr ⟨h.depth_le, hi⟩
  · exact Query.ofText_text_malformed limit hn (Nat.not_le.mp (mt Query.NoHigher.of_depth_le h))

-- ---------------------------------------------------------------------------
-- A query that is accepted and not loaded
-- ---------------------------------------------------------------------------

def isNull : Condition :=
  ⟨"id", "is_null", .null, none⟩

/-- A predicate with one more level for each group. -/
def tower : Nat → Predicate
  | 0 => .leaf isNull
  | groups + 1 => .group .and [.leaf isNull, tower groups]

/-- A composition that has the predicate as its row filter. -/
def filtered (predicate : Predicate) : Composition where
  table := "t"
  columns := .ofEntries [("id", .raw "id")]
  parameters := { rowFilters := [.named "known" predicate] }

theorem height_tower (groups : Nat) : (tower groups).height = groups + 1 := by
  induction groups with
  | zero => rfl
  | succ groups ih =>
    rw [tower, Predicate.height, Predicate.maxHeight, Predicate.maxHeight, Predicate.maxHeight, ih]
    simp [Predicate.height]

theorem sound_isNull : isNull.Sound where
  column := by decide
  comparison := ⟨.isNull, by decide, nofun⟩

theorem leaves_tower (groups : Nat) : ∀ condition ∈ (tower groups).leaves, condition = isNull := by
  induction groups with
  | zero => exact List.forall_mem_singleton.mpr rfl
  | succ groups ih =>
    simpa [tower, Predicate.leaves, Predicate.allLeaves] using ih

theorem groups_tower (groups : Nat) :
    ∀ children ∈ (tower groups).groups, Check.minGroupSize ≤ children.length := by
  induction groups with
  | zero => nofun
  | succ groups ih =>
    simpa [tower, Predicate.groups, Predicate.allGroups, Check.minGroupSize] using ih

theorem accepted_tower (groups : Nat) : (tower groups).Accepted (groups + 1) where
  height := (height_tower groups).le
  leaves := fun condition hm => leaves_tower groups condition hm ▸ sound_isNull
  groups := groups_tower groups

theorem problems_filtered {predicate : Predicate} (h : predicate.Accepted limit) :
    (Query.composed (filtered predicate)).document.problems limit = [] := by
  have hf (place : Place) :
      RowFilter.problemsOfAll limit place (filtered predicate).parameters.rowFilters = [] := by
    rw [RowFilter.problemsOfAll_eq_nil]
    refine ⟨Nat.le_add_left 1 15, List.forall_mem_singleton.mpr ⟨⟨rfl, ?_⟩, h⟩⟩
    simp [RowFilter.named]
  have hc (place : Place) : (filtered predicate).columns.problems limit place = [] := by
    rfl
  have hc : (filtered predicate).problems limit = [] := by
    have ht : Text.isBlank (filtered predicate).table = false :=
      show Text.isBlank "t" = false by decide
    simp only [Composition.problems, hf, hc, Check.notBlank_eq_nil.mpr ht, List.append_nil]
  exact List.append_eq_nil_iff.mpr ⟨hc, rfl⟩

theorem numbersReadBack_tower (groups : Nat) :
    (tower groups).filterToJson.NumbersReadBack := by
  induction groups with
  | zero => nofun
  | succ groups ih =>
    have hl : (Predicate.leaf isNull).filterToJson.NumbersReadBack := nofun
    rw [tower, Predicate.filterToJson, Predicate.filterMembers, Json.numbersReadBack_object,
      List.forall_mem_singleton, Json.numbersReadBack_array]
    exact List.forall_mem_cons.mpr ⟨hl, List.forall_mem_singleton.mpr ih⟩

theorem numbersReadBack_filtered {predicate : Predicate}
    (h : predicate.filterToJson.NumbersReadBack) :
    (Query.composed (filtered predicate)).toJson.NumbersReadBack := by
  have hf : (filtered predicate).parameters.toJson.numbers = predicate.filterToJson.numbers := by
    simp [filtered, RowFilter.named, Parameters.toJson, Interval.optionToJson,
      RowFilter.listToJson, RowFilter.toJson, FilterMetadata.toJson, Predicate.filterToJson,
      Json.numbers, Json.numbersOfItems, Json.numbersOfMembers]
  have hq : (Query.composed (filtered predicate)).toJson.numbers =
      (filtered predicate).parameters.toJson.numbers :=
    (List.append_nil _).trans (List.append_nil _)
  intro number hm
  exact h number (hf ▸ hq ▸ hm)

theorem noHigher_filtered {predicate : Predicate} :
    (Query.composed (filtered predicate)).NoHigher inFilters inColumns ↔
      predicate.height ≤ inFilters := by
  constructor
  · exact fun h => h.filters _ rfl _ (List.mem_singleton_self _)
  · refine fun h => ⟨?_, ?_⟩
    · rintro _ ⟨⟩
      exact List.forall_mem_singleton.mpr h
    · rintro _ ⟨⟩
      nofun

theorem intervalReadsBack_filtered (predicate : Predicate) :
    (Query.composed (filtered predicate)).IntervalReadsBack := by
  rintro _ ⟨⟩
  nofun

/-- Two of the accepted queries, the one loaded and the other not. -/
theorem accepted_queries_load_unless_too_deep_towers :
    (Query.composed (filtered (tower 60))).document.problems 64 = [] ∧
      Query.ofText 64 (Query.composed (filtered (tower 60))).text =
        .ok (.composed (filtered (tower 60))) ∧
      (Query.composed (filtered (tower 62))).document.problems 64 = [] ∧
      ∃ error, Query.ofText 64 (Query.composed (filtered (tower 62))).text =
        .error [.malformed error] := by
  have hp (groups : Nat) (h : groups < 64) :=
    problems_filtered ((accepted_tower groups).deeper h)
  have hn (groups : Nat) := numbersReadBack_filtered (numbersReadBack_tower groups)
  refine ⟨hp 60 (by decide), ?_, hp 62 (by decide), ?_⟩
  · refine (accepted_queries_load_unless_too_deep (hp 60 (by decide)) (hn 60)).2.1 ?_ ?_
    · exact noHigher_filtered.mpr (height_tower 60).le
    · exact intervalReadsBack_filtered (tower 60)
  · refine (accepted_queries_load_unless_too_deep (hp 62 (by decide)) (hn 62)).2.2 ?_
    rw [noHigher_filtered, height_tower]
    decide

/-- A row filter as high as the default limit allows. -/
theorem accepted_query_not_loaded :
    ¬ ∀ query : Query, query.document.problems Check.defaultDepth = [] →
      query.toJson.NumbersReadBack → query.IntervalReadsBack →
        Query.ofText Check.defaultDepth query.text = .ok query := by
  intro h
  have hn := numbersReadBack_filtered (numbersReadBack_tower 63)
  have hl := h (.composed (filtered (tower 63))) (problems_filtered (accepted_tower 63)) hn
    (intervalReadsBack_filtered _)
  have hd : ¬ (Query.composed (filtered (tower 63))).NoHigher 62 61 := by
    rw [noHigher_filtered, height_tower]
    decide
  obtain ⟨error, he⟩ := Query.ofText_text_malformed Check.defaultDepth hn
    (Nat.not_le.mp (mt Query.NoHigher.of_depth_le hd))
  rw [hl] at he
  cases he

end DeclarativeSql
