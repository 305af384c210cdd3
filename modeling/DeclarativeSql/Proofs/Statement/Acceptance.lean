import DeclarativeSql.Proofs.Check.Accepted
import DeclarativeSql.Proofs.Statement.FirstFault
import DeclarativeSql.Proofs.Statement.Limit
import DeclarativeSql.Wire.Document

/-!
# Accepted queries compose

`accepted_queries_compose`: a query that was read with a limit, under overrides that the same
limit accepts, composes under every limit at least as deep, and to the same statement. Only
the schema may still be missing, or the date of a bound. The filters in force are accepted because
each of them comes from the request or from the composition.
-/

namespace DeclarativeSql

-- ---------------------------------------------------------------------------
-- Accepted parts compile
-- ---------------------------------------------------------------------------

theorem Predicate.Accepted.compile {p : Predicate} (h : p.Accepted limit) :
    ∃ fragment, p.compile limit = .ok fragment := by
  have hp : p.problems limit (.root "") = [] := (p.problems_eq_nil limit _).mpr h
  have hf := p.head_faults limit (.root "")
  rw [hp] at hf
  exact fault?_eq_none.mp hf.symm

theorem Composition.rowFilters_accepted {composition : Composition}
    (h : composition.problems limit = []) :
    ∀ filter ∈ composition.parameters.rowFilters, filter.Accepted limit := by
  simp only [Composition.problems, List.append_eq_nil_iff, RowFilter.problemsOfAll_eq_nil] at h
  exact h.2.2

theorem Composition.columns_nonempty {composition : Composition}
    (h : composition.problems limit = []) : composition.columns.isEmpty = false := by
  simp only [Composition.problems, Columns.problems, List.append_eq_nil_iff,
    Check.atLeast_eq_nil] at h
  have hs : 1 ≤ composition.columns.entries.length := h.1.2.1.1
  rw [Columns.isEmpty, List.isEmpty_eq_false_iff]
  exact List.ne_nil_of_length_pos hs

theorem Composition.selectList_accepted {options : StatementOptions} {composition : Composition}
    (h : composition.problems options.maxDepth = []) :
    fault? (composition.selectList options) = none := by
  have hf := composition.head_faults options
  rw [h, faults_nil, List.head?_nil, eq_comm, Option.or_eq_none_iff] at hf
  exact hf.1

/-- A filter in force comes from the request or from the composition. -/
theorem RowFilter.merge_accepted {primary secondary : List RowFilter}
    (hp : ∀ filter ∈ primary, filter.Accepted limit)
    (hs : ∀ filter ∈ secondary, filter.Accepted limit) :
    ∀ filter ∈ RowFilter.merge primary secondary, filter.Accepted limit := by
  intro filter hf
  rw [RowFilter.merge, mergeBy, List.mem_append] at hf
  rcases hf with hf | hf
  · exact hp filter hf
  · exact hs filter (List.mem_of_mem_filter hf)

theorem RowFilter.compile_accepted {filters : List RowFilter}
    (h : ∀ filter ∈ filters, filter.Accepted limit) :
    fault? (filters.mapM fun filter => filter.predicate.compile limit) = none := by
  rw [fault?_mapM, List.findSome?_eq_none_iff]
  intro filter hf
  exact fault?_eq_none.mpr (h filter hf).predicate.compile

section
variable {options : StatementOptions} {schema : String} {composition : Composition}
  {overrides : Overrides}

theorem Composition.compile_accepted (hc : composition.problems options.maxDepth = [])
    (ho : overrides.problems options.maxDepth = [])
    (hd : (overrides.apply composition.parameters).HasDates options.zone) :
    ∃ statement, composition.compile options schema (overrides.apply composition.parameters) =
      .ok statement := by
  have hr := ((Overrides.problems_eq_nil options.maxDepth overrides).mp ho).2
  have hm := RowFilter.compile_accepted
    (RowFilter.merge_accepted hr (Composition.rowFilters_accepted hc))
  apply fault?_eq_none.mp
  rw [Composition.fault?_compile, Composition.selectList_accepted hc, Parameters.fault?_dates hd]
  exact congrArg (Option.map _) hm

end

-- ---------------------------------------------------------------------------
-- Accepted queries
-- ---------------------------------------------------------------------------

theorem Query.ofDocument_ok {document : Document} {query : Query}
    (h : Query.ofDocument limit document = .ok query) :
    document.problems limit = [] ∧ document.source? = some query.source := by
  unfold Query.ofDocument at h
  split at h
  · rename_i hp hs
    cases h
    exact ⟨hp, hs⟩
  · cases h
  · cases h

theorem Query.ofText_accepted {text : String} {query : Query}
    (h : Query.ofText limit text = .ok query) : query.source.problems limit = [] := by
  unfold Query.ofText at h
  split at h
  · obtain ⟨hp, hs⟩ := Query.ofDocument_ok h
    rw [Document.problems, hs, List.append_eq_nil_iff] at hp
    exact hp.1
  · cases h

/-- The request or the composition names a schema. -/
def Composition.NamesSchema (composition : Composition) (schema : Option String) : Prop :=
  ∃ name, name ≠ "" ∧ (schema = some name ∨ composition.schema = some name)

theorem Composition.schemaFor?_isSome (composition : Composition) (schema : Option String) :
    (composition.schemaFor? schema).isSome = true ↔ composition.NamesSchema schema := by
  rw [Composition.schemaFor?, Option.isSome_or, Bool.or_eq_true, Option.isSome_filter,
    Option.isSome_filter, Option.any_eq_true, Option.any_eq_true]
  simp only [Composition.NamesSchema, decide_eq_true_eq]
  constructor
  · rintro (⟨name, hs, hn⟩ | ⟨name, hs, hn⟩)
    · exact ⟨name, hn, .inl hs⟩
    · exact ⟨name, hn, .inr hs⟩
  · rintro ⟨name, hn, hs | hs⟩
    · exact .inl ⟨name, hs, hn⟩
    · exact .inr ⟨name, hs, hn⟩

section
variable {options : StatementOptions} {schema : Option String} {overrides : Overrides}
  {query : Query} {composition : Composition}

theorem Query.compose_eq (hc : query.source = .composition composition) :
    query.compose options schema overrides =
      (composition.compose options schema overrides).map fun (_, statement) =>
        statement.text options.dialect := by
  simp only [Query.compose, hc]

theorem Query.composeBound_eq (hc : query.source = .composition composition) :
    query.composeBound options schema overrides =
      (composition.compose options schema overrides).map fun (_, statement) =>
        statement.bind options.dialect := by
  simp only [Query.composeBound, hc]

theorem Query.composeChecked_eq (ho : overrides.problems options.maxDepth = []) :
    query.composeChecked options schema overrides = query.compose options schema overrides := by
  simp only [Query.composeChecked, ho]

/-- The three ways to compose share what the composition comes to. -/
theorem Query.compose_results (hc : query.source = .composition composition)
    (ho : overrides.problems options.maxDepth = [])
    (h : composition.compose options schema overrides = result) :
    query.compose options schema overrides =
        result.map (fun (_, statement) => statement.text options.dialect) ∧
      query.composeBound options schema overrides =
        result.map (fun (_, statement) => statement.bind options.dialect) ∧
      query.composeChecked options schema overrides =
        result.map (fun (_, statement) => statement.text options.dialect) := by
  rw [Query.composeChecked_eq ho, Query.compose_eq hc, Query.composeBound_eq hc, h]
  exact ⟨rfl, rfl, rfl⟩

end

theorem accepted_queries_compose {text : String} {query : Query} {composition : Composition}
    {overrides : Overrides} (hq : Query.ofText limit text = .ok query)
    (hc : query.source = .composition composition) (ho : overrides.problems limit = [])
    (options : StatementOptions) (schema : Option String) :
    let parameters := overrides.apply composition.parameters
    (composition.NamesSchema schema → parameters.HasDates options.zone →
      ∃ sql bound, ∀ deeper, limit ≤ deeper →
        query.compose { options with maxDepth := deeper } schema overrides = .ok sql ∧
        query.composeBound { options with maxDepth := deeper } schema overrides = .ok bound ∧
        query.composeChecked { options with maxDepth := deeper } schema overrides = .ok sql) ∧
    (composition.NamesSchema schema → ¬ parameters.HasDates options.zone →
      ∀ deeper, limit ≤ deeper →
        query.compose { options with maxDepth := deeper } schema overrides = .error .panicked ∧
        query.composeBound { options with maxDepth := deeper } schema overrides =
          .error .panicked ∧
        query.composeChecked { options with maxDepth := deeper } schema overrides =
          .error .panicked) ∧
    (¬ composition.NamesSchema schema → ∀ deeper, limit ≤ deeper →
      query.compose { options with maxDepth := deeper } schema overrides =
        .error (.returned .noSchema) ∧
      query.composeBound { options with maxDepth := deeper } schema overrides =
        .error (.returned .noSchema) ∧
      query.composeChecked { options with maxDepth := deeper } schema overrides =
        .error (.returned .noSchema)) := by
  intro parameters
  have hp : composition.problems limit = [] := by
    simpa only [hc, Source.problems] using Query.ofText_accepted hq
  rw [← Composition.schemaFor?_isSome]
  cases hs : composition.schemaFor? schema with
  | none =>
    refine ⟨by simp, by simp, fun _ deeper hl => ?_⟩
    have hcompose : composition.compose { options with maxDepth := deeper } schema overrides =
        .error (.returned .noSchema) := by
      simp only [Composition.compose, hs]
    exact Query.compose_results hc (Overrides.problems_deeper ho hl) hcompose
  | some used =>
    have hcolumns := Composition.columns_nonempty hp
    refine ⟨fun _ hd => ?_, fun _ hd deeper hl => ?_, by simp⟩
    · obtain ⟨statement, h⟩ : ∃ statement,
          composition.compile { options with maxDepth := limit } used parameters = .ok statement :=
        Composition.compile_accepted hp ho hd
      refine ⟨statement.text options.dialect, statement.bind options.dialect, fun deeper hl => ?_⟩
      have hcompose : composition.compose { options with maxDepth := deeper } schema overrides =
          .ok (used, statement) :=
        Composition.compose_ok.mpr ⟨hs, hcolumns, Composition.compile_deeper hl h⟩
      exact Query.compose_results hc (Overrides.problems_deeper ho hl) hcompose
    · obtain ⟨columns, hselect⟩ : ∃ columns,
          composition.selectList { options with maxDepth := limit } = .ok columns :=
        fault?_eq_none.mp (Composition.selectList_accepted hp)
      have hcompose : composition.compose { options with maxDepth := deeper } schema overrides =
          .error .panicked :=
        Composition.compose_of_compile_error hs hcolumns
          (Composition.compile_panics (Composition.selectList_deeper hl hselect) hd)
      exact Query.compose_results hc (Overrides.problems_deeper ho hl) hcompose

def spendText : String :=
  "\x7b\"composition\":\x7b\"table\":\"cube\"," ++
    "\"columns\":\x7b\"spend\":\x7b\"sql\":\"spend\"\x7d\x7d," ++
    "\"schema\":\"acme\"\x7d\x7d"

def spends : Composition where
  table := "cube"
  columns := .ofEntries [("spend", .raw "spend")]
  schema := some "acme"

def paidOrNamed : Overrides where
  rowFilters := some [.named "paid" (.group .or
    [.leaf ⟨"spend", "greater_than", .number (.int 7), none⟩,
      .leaf ⟨"campaign", "contains", .text "ios", none⟩])]

theorem read_spendText : Json.read spendText =
    (.object [(some "composition", .object
      [(some "table", .string "cube"),
        (some "columns", .object [(some "spend", .object [(some "sql", .string "spend")])]),
        (some "schema", .string "acme")])], true) := by
  cbv

theorem ofText_spendText : Query.ofText 2 spendText = .ok (.composed spends) := by
  have hd : decodeText Document.ofNode spendText = .ok { composition := some spends } := by
    rw [decodeText, read_spendText]
    rfl
  rw [Query.ofText, hd]
  rfl

theorem accepted_queries_compose_spends :
    Query.ofText 2 spendText = .ok (.composed spends) ∧ paidOrNamed.problems 2 = [] ∧
      spends.NamesSchema none ∧ (paidOrNamed.apply spends.parameters).HasDates .local ∧
      ∃ sql bound, ∀ deeper, 2 ≤ deeper →
        (Query.composed spends).compose { maxDepth := deeper } none paidOrNamed = .ok sql ∧
        (Query.composed spends).composeBound { maxDepth := deeper } none paidOrNamed = .ok bound ∧
        (Query.composed spends).composeChecked { maxDepth := deeper } none paidOrNamed =
          .ok sql := by
  have hs : spends.NamesSchema none := ⟨"acme", by decide, .inr rfl⟩
  have hd : (paidOrNamed.apply spends.parameters).HasDates .local := nofun
  have ho : paidOrNamed.problems 2 = [] := rfl
  exact ⟨ofText_spendText, ho, hs, hd,
    (accepted_queries_compose ofText_spendText rfl ho {} none).1 hs hd⟩

def lastDayText : String :=
  "\x7b\"composition\":\x7b\"table\":\"cube\"," ++
    "\"columns\":\x7b\"spend\":\x7b\"sql\":\"spend\"\x7d\x7d," ++
    "\"parameters\":\x7b\"interval\":\x7b\"unit\":\"range\",\"value\":\x7b" ++
    "\"start\":\"1970-01-01T00:00:00Z\",\"end\":\"+262142-12-31T23:59:59Z\"" ++
    "\x7d\x7d\x7d\x7d\x7d"

theorem ofText_lastDayText : Query.ofText 64 lastDayText = .ok (.composed lastDay) := by
  decide +kernel

theorem accepted_query_without_date :
    ¬ ∀ (limit : Nat) (text : String) (query : Query) (composition : Composition)
        (overrides : Overrides) (options : StatementOptions) (schema : Option String),
      Query.ofText limit text = .ok query → query.source = .composition composition →
      overrides.problems limit = [] → limit ≤ options.maxDepth → composition.NamesSchema schema →
      ∃ sql, query.compose options schema overrides = .ok sql := by
  intro h
  let options : StatementOptions := { zone := .fixed 19800 }
  obtain ⟨sql, hs⟩ := h 64 lastDayText _ _ {} options (some "acme") ofText_lastDayText rfl rfl
    (Nat.le_refl 64) ⟨"acme", by decide, .inl rfl⟩
  have hz : 0 < options.zone.offset := by decide
  rw [Query.compose_eq rfl, compose_lastDay hz] at hs
  cases hs

end DeclarativeSql
