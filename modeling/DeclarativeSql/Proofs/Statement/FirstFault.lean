import DeclarativeSql.Proofs.Check.Faults
import DeclarativeSql.Proofs.Statement.Parts

/-!
# Composing stops at the first fault of the check

`compose_stops_at_first_fault`: checking a composition together with the row filters in force
tells what composing it does. Without faults there is a statement, otherwise the first of them
is the answer. A range without dates is not a fault of the check: composing panics where it comes
to the date filter, behind the columns and in front of the row filters.
-/

namespace DeclarativeSql

/-- The composition with the row filters that are in force under a request for its own. -/
def Composition.withFiltersInForce (composition : Composition) (overrides : Overrides) :
    Composition :=
  { composition with
    parameters :=
      { composition.parameters with
        rowFilters :=
          RowFilter.merge (overrides.rowFilters.getD []) composition.parameters.rowFilters } }

section
variable {options : StatementOptions} {parameters : Parameters}

theorem Parameters.fault?_dates (h : parameters.HasDates options.zone) :
    fault? (parameters.interval.toList.mapM (Interval.compile options)) = none := by
  rw [fault?_mapM, List.findSome?_eq_none_iff]
  intro interval hi
  exact fault?_eq_none.mpr (Interval.compile_hasDates (h interval (Option.mem_toList.mp hi)))

theorem Parameters.fault?_dates_of_not (h : ¬ parameters.HasDates options.zone) :
    fault? (parameters.interval.toList.mapM (Interval.compile options)) = some .panicked := by
  simp only [HasDates, not_forall] at h
  obtain ⟨interval, hi, hn⟩ := h
  have hc := Interval.compile_error.mpr ⟨hn, rfl⟩
  rw [Option.mem_def.mp hi, Option.toList_some, fault?_mapM, List.findSome?_singleton, hc,
    fault?_error]

end

section
variable (options : StatementOptions) (schema : String) (overrides : Overrides)

theorem Composition.fault?_compile (parameters : Parameters) (composition : Composition) :
    fault? (composition.compile options schema parameters) =
      ((fault? (composition.selectList options)).map (.returned <| .compile ·)).or
        ((fault? (parameters.interval.toList.mapM (Interval.compile options))).or
          ((fault? (parameters.rowFilters.mapM fun filter =>
            filter.predicate.compile options.maxDepth)).map (.returned <| .compile ·))) := by
  rw [Composition.compile, fault?_bind_bind_pure, Composition.conditions, fault?_bind_bind_pure,
    fault?_returning, fault?_returning]

/-- The check of a composition with the filters in force foretells its compilation. -/
theorem Composition.fault?_compile_hasDates {composition : Composition}
    (h : (overrides.apply composition.parameters).HasDates options.zone) :
    fault? (composition.compile options schema (overrides.apply composition.parameters)) =
      (faults ((composition.withFiltersInForce overrides).problems options.maxDepth)).head?.map
        (.returned <| .compile ·) := by
  rw [Composition.fault?_compile, Parameters.fault?_dates h, Composition.head_faults, Option.map_or]
  rfl

/-- Without dates only the check of the columns does. -/
theorem Composition.fault?_compile_of_not (place : Place) {composition : Composition}
    (h : ¬ (overrides.apply composition.parameters).HasDates options.zone) :
    fault? (composition.compile options schema (overrides.apply composition.parameters)) =
      ((faults (composition.columns.problems options.maxDepth place)).head?.map
        (.returned <| .compile ·)).or (some .panicked) := by
  rw [Composition.fault?_compile, Parameters.fault?_dates_of_not h, Columns.head_faults]
  rfl

end

theorem Composition.schemaFor?_some (composition : Composition) {schema : String}
    (h : schema ≠ "") : composition.schemaFor? (some schema) = some schema := by
  simp [Composition.schemaFor?, h]

theorem Composition.compose_of_compile_error {options : StatementOptions} {schema : Option String}
    {overrides : Overrides} {composition : Composition}
    (hs : composition.schemaFor? schema = some used) (hc : composition.columns.isEmpty = false)
    (h : composition.compile options used (overrides.apply composition.parameters) =
      .error fault) :
    composition.compose options schema overrides = .error fault := by
  simp [Composition.compose, hs, hc, h, Except.map]

/-- When the columns compile, the missing date is what composing comes to next. -/
theorem Composition.compile_panics {options : StatementOptions} {schema : String}
    {parameters : Parameters} {composition : Composition}
    (hs : composition.selectList options = .ok fragment) (hd : ¬ parameters.HasDates options.zone) :
    composition.compile options schema parameters = .error .panicked := by
  apply fault?_eq_some.mp
  rw [Composition.fault?_compile, hs, Parameters.fault?_dates_of_not hd]
  rfl

theorem compose_stops_at_first_fault (options : StatementOptions) (overrides : Overrides)
    {schema : String} {composition : Composition} (hs : schema ≠ "")
    (hc : composition.columns.isEmpty = false) :
    let found := faults ((composition.withFiltersInForce overrides).problems options.maxDepth)
    let ofColumns := faults
      (composition.columns.problems options.maxDepth (.member (.root "composition") "columns"))
    ((overrides.apply composition.parameters).HasDates options.zone →
      ((∃ result, composition.compose options (some schema) overrides = .ok result) ↔
        found = []) ∧
      ∀ fault rest, found = fault :: rest →
        composition.compose options (some schema) overrides =
          .error (.returned (.compile fault))) ∧
    (¬ (overrides.apply composition.parameters).HasDates options.zone →
      (ofColumns = [] → composition.compose options (some schema) overrides = .error .panicked) ∧
      ∀ fault rest, ofColumns = fault :: rest →
        composition.compose options (some schema) overrides =
          .error (.returned (.compile fault))) := by
  intro found ofColumns
  have hu := composition.schemaFor?_some hs
  have hfail {fault : Failure ComposeError} : fault? (composition.compile options schema
      (overrides.apply composition.parameters)) = some fault →
        composition.compose options (some schema) overrides = .error fault :=
    fun h => Composition.compose_of_compile_error hu hc (fault?_eq_some.mp h)
  constructor
  · intro hd
    have hf : fault? (composition.compile options schema
        (overrides.apply composition.parameters)) =
          found.head?.map (.returned <| .compile ·) :=
      Composition.fault?_compile_hasDates options schema overrides hd
    have hfound : ∀ fault rest, found = fault :: rest →
        composition.compose options (some schema) overrides =
          .error (.returned (.compile fault)) := by
      intro fault rest he
      exact hfail (by rw [hf, he]; rfl)
    refine ⟨⟨?_, ?_⟩, hfound⟩
    · rintro ⟨result, hr⟩
      cases he : found with
      | nil => rfl
      | cons fault rest =>
        rw [hfound fault rest he] at hr
        cases hr
    · intro he
      rw [he] at hf
      obtain ⟨statement, h⟩ := fault?_eq_none.mp hf
      exact ⟨(schema, statement), Composition.compose_ok.mpr ⟨hu, hc, h⟩⟩
  · intro hd
    have hf : fault? (composition.compile options schema
        (overrides.apply composition.parameters)) =
          (ofColumns.head?.map (.returned <| .compile ·)).or (some .panicked) :=
      Composition.fault?_compile_of_not options schema overrides _ hd
    constructor
    · intro he
      exact hfail (by rw [hf, he]; rfl)
    · intro fault rest he
      exact hfail (by rw [hf, he]; rfl)

/-- A blank table, a blank column and an operator that is not known, in a filter of its own. -/
def blankSpends : Composition where
  columns := .ofEntries [("spend", .raw "")]
  parameters := { rowFilters := [.named "paid" (.leaf ⟨"spend", "between", .null, none⟩)] }

/-- Takes the place of the faulty filter, with faults of its own. -/
def groupWithoutValue : Overrides where
  rowFilters := some [.named "paid" (.group .or
    [.leaf ⟨"", "is_null", .null, none⟩, .leaf ⟨"spend", "less_than", .null, none⟩,
      .leaf ⟨"spend", "near", .null, none⟩])]

theorem compose_stops_at_first_fault_of_request :
    "acme" ≠ "" ∧ blankSpends.columns.isEmpty = false ∧
      (groupWithoutValue.apply blankSpends.parameters).HasDates .local ∧
      faults ((blankSpends.withFiltersInForce groupWithoutValue).problems 64) =
        [.missingValue .lessThan, .unknownOperator "near"] ∧
      blankSpends.compose {} (some "acme") groupWithoutValue =
        .error (.returned (.compile (.missingValue .lessThan))) := by
  have hd : (groupWithoutValue.apply blankSpends.parameters).HasDates .local := nofun
  exact ⟨by decide, rfl, hd, rfl,
    ((compose_stops_at_first_fault {} groupWithoutValue (by decide) rfl).1 hd).2 _ _ rfl⟩

/-- The rows up to the last second of the calendar. -/
def lastDay : Composition where
  table := "cube"
  columns := .ofEntries [("spend", .raw "spend")]
  parameters := { interval := some (.range ⟨⟨0, 0, 0, by decide⟩, .lastSecond⟩) }

theorem not_hasDates_lastDay {zone : Zone} (h : 0 < zone.offset) :
    ¬ (({} : Overrides).apply lastDay.parameters).HasDates zone :=
  fun hd => Timestamp.not_hasDate_lastSecond h (hd _ rfl).2

theorem compose_lastDay {options : StatementOptions} (h : 0 < options.zone.offset) :
    lastDay.compose options (some "acme") {} = .error .panicked := by
  have hs : lastDay.selectList options = .ok [.raw "spend"] := rfl
  exact Composition.compose_of_compile_error rfl rfl
    (Composition.compile_panics hs (not_hasDates_lastDay h))

theorem compose_without_fault_or_date :
    ¬ ∀ (options : StatementOptions) (overrides : Overrides) (schema : String)
        (composition : Composition), schema ≠ "" → composition.columns.isEmpty = false →
      ((∃ result, composition.compose options (some schema) overrides = .ok result) ↔
        faults ((composition.withFiltersInForce overrides).problems options.maxDepth) = []) := by
  intro h
  let options : StatementOptions := { zone := .fixed 19800 }
  have hz : 0 < options.zone.offset := by decide
  obtain ⟨result, hr⟩ := (h options {} "acme" lastDay (by decide) rfl).mpr (by decide)
  rw [compose_lastDay hz] at hr
  cases hr

end DeclarativeSql
