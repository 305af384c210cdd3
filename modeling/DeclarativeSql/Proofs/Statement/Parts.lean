import DeclarativeSql.Proofs.Calendar.Order
import DeclarativeSql.Proofs.Sql.Grammar
import DeclarativeSql.Proofs.Statement.Compiled
import DeclarativeSql.Statement.Compose

/-!
# The parts of what compiles

Each lemma says when one kind of tree compiles and what its tokens are made of, so that later
proofs do not look into the compiler.
-/

namespace DeclarativeSql

-- ---------------------------------------------------------------------------
-- Conditions
-- ---------------------------------------------------------------------------

theorem Operator.compile_derives {operator : Operator}
    (h : operator.compile column value caseSensitive = .ok fragment) :
    Grammar.Comparison fragment := by
  unfold Operator.compile Operator.comparand at h
  split at h
  · cases h
    refine .null ?_
    cases operator <;> simp [Operator.nullTest]
  · split at h
    · cases h
    · cases h
      split
      · cases value with
        | null => contradiction
        | number value => exact .number
        | text value => exact .text
      · refine .pattern ?_
        cases caseSensitive <;> simp [Operator.patternTest]

theorem Condition.compile_derives {condition : Condition}
    (h : condition.compile = .ok fragment) : Grammar.Comparison fragment := by
  unfold Condition.compile at h
  split at h
  · cases h
  · exact Operator.compile_derives h

theorem Condition.compile_column {condition : Condition} (h : condition.compile = .ok fragment) :
    ∃ test, fragment = .column condition.column :: test := by
  unfold Condition.compile Operator.compile at h
  split at h
  · cases h
  · split at h
    · cases h
      exact ⟨_, rfl⟩
    · split at h
      · cases h
      · cases h
        exact ⟨_, rfl⟩

-- ---------------------------------------------------------------------------
-- Predicates
-- ---------------------------------------------------------------------------

theorem Predicate.compileAt_leaf_ok :
    (Predicate.leaf condition).compileAt limit depth = .ok fragment ↔
      depth ≤ limit ∧ condition.compile = .ok fragment := by
  rw [Predicate.compileAt]
  split
  · simp only [reduceCtorEq, false_iff]
    omega
  · simp only [iff_and_self]
    omega

theorem Predicate.compileAt_group_ok {connective : Connective} {children : List Predicate} :
    (Predicate.group connective children).compileAt limit depth = .ok fragment ↔
      depth ≤ limit ∧ ∃ members, Predicate.compileAllAt limit (depth + 1) children = .ok members ∧
        Predicate.grouped connective members = fragment := by
  rw [Predicate.compileAt]
  split
  · simp only [reduceCtorEq, false_iff]
    omega
  · rw [map_ok, iff_and_self]
    omega

theorem Predicate.compileAllAt_cons_ok {child : Predicate} {rest : List Predicate} :
    Predicate.compileAllAt limit depth (child :: rest) = .ok fragments ↔
      ∃ first, child.compileAt limit depth = .ok first ∧
        ∃ others, Predicate.compileAllAt limit depth rest = .ok others ∧
          first :: others = fragments := by
  simp only [Predicate.compileAllAt, bind_ok, pure_ok]

mutual
/-- What holds of conditions and passes from members to groups holds of all predicates. -/
theorem Predicate.compileAt_induction {P : Fragment → Prop}
    (leaf : ∀ {condition : Condition} {fragment}, condition.compile = .ok fragment → P fragment)
    (group : ∀ (connective : Connective) {members}, (∀ member ∈ members, P member) →
      P (Predicate.grouped connective members))
    (depth : Nat) : (p : Predicate) → p.compileAt limit depth = .ok fragment → P fragment
  | .leaf _, h => leaf (Predicate.compileAt_leaf_ok.mp h).2
  | .group connective children, h => by
    obtain ⟨_, members, hm, rfl⟩ := Predicate.compileAt_group_ok.mp h
    exact group connective (Predicate.compileAllAt_induction leaf group (depth + 1) children hm)
theorem Predicate.compileAllAt_induction {P : Fragment → Prop}
    (leaf : ∀ {condition : Condition} {fragment}, condition.compile = .ok fragment → P fragment)
    (group : ∀ (connective : Connective) {members}, (∀ member ∈ members, P member) →
      P (Predicate.grouped connective members))
    (depth : Nat) : (children : List Predicate) →
      Predicate.compileAllAt limit depth children = .ok members → ∀ member ∈ members, P member
  | [], h => by
    cases h
    exact List.forall_mem_nil _
  | child :: rest, h => by
    obtain ⟨first, hf, others, ho, rfl⟩ := Predicate.compileAllAt_cons_ok.mp h
    exact List.forall_mem_cons.mpr ⟨Predicate.compileAt_induction leaf group depth child hf,
      Predicate.compileAllAt_induction leaf group depth rest ho⟩
end

-- ---------------------------------------------------------------------------
-- Columns
-- ---------------------------------------------------------------------------

theorem Outcome.token_derives (outcome : Outcome) : Grammar.Result outcome.token := by
  cases outcome with
  | column name => exact .column
  | value literal => cases literal with
    | null => exact .null
    | number value => exact .number
    | text value => exact .text

theorem CaseClause.otherwiseToken_derives (clauses : List CaseClause) :
    Grammar.Result (otherwiseToken clauses) := by
  unfold otherwiseToken
  cases lastOtherwise? clauses with
  | none => exact .null
  | some outcome => exact outcome.token_derives

theorem CaseClause.compileBranches_branch_ok {condition : Predicate} {outcome : Outcome}
    {rest : List CaseClause} :
    CaseClause.compileBranches limit (.branch condition outcome :: rest) = .ok fragment ↔
      ∃ first, condition.compile limit = .ok first ∧
        ∃ others, CaseClause.compileBranches limit rest = .ok others ∧
          CaseClause.branchFragment first outcome ++ others = fragment := by
  simp only [CaseClause.compileBranches, bind_ok, pure_ok]

theorem CaseClause.compileBranches_induction {P : Fragment → Prop} (nil : P [])
    (branch : ∀ {condition : Predicate} {first others : Fragment} (outcome : Outcome),
      condition.compile limit = .ok first → P others →
        P (CaseClause.branchFragment first outcome ++ others))
    {clauses : List CaseClause} (h : CaseClause.compileBranches limit clauses = .ok fragment) :
    P fragment := by
  induction clauses generalizing fragment with
  | nil =>
    cases h
    exact nil
  | cons clause rest ih =>
    cases clause with
    | otherwise outcome => exact ih h
    | branch condition outcome =>
      obtain ⟨first, hf, others, ho, rfl⟩ := CaseClause.compileBranches_branch_ok.mp h
      exact branch outcome hf (ih ho)

theorem Column.compile_cased_ok {clauses : List CaseClause} :
    (Column.cased clauses).compile limit name = .ok fragment ↔
      ∃ branches, CaseClause.compileBranches limit clauses = .ok branches ∧
        .caseStart :: branches ++ [.space, .caseElse, .space, CaseClause.otherwiseToken clauses,
          .space, .caseEnd] ++ [.space, .asName, .space, .identifier name] = fragment := by
  simp only [Column.compile, CaseClause.compileAll, map_ok]
  constructor
  · rintro ⟨cases, ⟨branches, hb, rfl⟩, rfl⟩
    exact ⟨branches, hb, rfl⟩
  · rintro ⟨branches, hb, rfl⟩
    exact ⟨_, ⟨branches, hb, rfl⟩, rfl⟩

-- ---------------------------------------------------------------------------
-- Intervals
-- ---------------------------------------------------------------------------

/-- Rows of the last days. -/
def Fragment.since (column : String) (count : Number) : Fragment :=
  [.column column, .space, .comparison .greaterOrEqual, .space, .currentTimestamp, .space, .minus,
   .space, .interval, .space, .inline (count.numeral ++ " day")]

/-- A column between two dates, both included. -/
def Fragment.between (column : String) (first last : Date) : Fragment :=
  [.column column, .space, .comparison .greaterOrEqual, .space, .inline first.plainText, .space,
   .lowerAnd, .space, .column column, .space, .comparison .lessOrEqual, .space,
   .inline last.plainText]

namespace Interval

variable {options : StatementOptions}

/-- The bounds of a range have dates in the zone. -/
def HasDates (zone : Zone) : Interval → Prop
  | .days _ => True
  | .range bounds => bounds.first.HasDate zone ∧ bounds.last.HasDate zone

theorem boundText_ok {zone : Zone} {bound : Timestamp} :
    boundText zone bound = .ok text ↔
      ∃ date, bound.dateIn? zone = some date ∧ date.plainText = text := by
  unfold boundText
  cases bound.dateIn? zone <;> simp

theorem compile_range_ok {bounds : DateRange} :
    (Interval.range bounds).compile options = .ok fragment ↔
      ∃ first last, bounds.first.dateIn? options.zone = some first ∧
        bounds.last.dateIn? options.zone = some last ∧
        Fragment.between options.dateColumn first last = fragment := by
  simp only [compile, bind_ok, boundText_ok, pure_ok]
  constructor
  · rintro ⟨_, ⟨first, hf, rfl⟩, _, ⟨last, hl, rfl⟩, rfl⟩
    exact ⟨first, last, hf, hl, rfl⟩
  · rintro ⟨first, last, hf, hl, rfl⟩
    exact ⟨_, ⟨first, hf, rfl⟩, _, ⟨last, hl, rfl⟩, rfl⟩

/-- What holds of the two forms of a date filter holds of every one. -/
theorem compile_cases {P : Fragment → Prop}
    (since : ∀ count, P (Fragment.since options.dateColumn count))
    (between : ∀ first last, P (Fragment.between options.dateColumn first last))
    {interval : Interval} (h : interval.compile options = .ok fragment) : P fragment := by
  cases interval with
  | days count =>
    cases h
    exact since count
  | range bounds =>
    obtain ⟨first, last, -, -, rfl⟩ := compile_range_ok.mp h
    exact between first last

/-- There is no fault of an interval but the panic. -/
theorem compile_error {interval : Interval} :
    interval.compile options = .error fault ↔
      ¬ interval.HasDates options.zone ∧ fault = .panicked := by
  cases interval with
  | days count => simp [compile, HasDates]
  | range bounds =>
    rw [HasDates, Timestamp.hasDate_iff, Timestamp.hasDate_iff, compile, boundText, boundText]
    cases bounds.first.dateIn? options.zone <;> cases bounds.last.dateIn? options.zone <;>
      simp [bind, Except.bind, pure, Except.pure, eq_comm]

theorem compile_hasDates {interval : Interval} (h : interval.HasDates options.zone) :
    ∃ fragment, interval.compile options = .ok fragment := by
  cases hc : interval.compile options with
  | ok fragment => exact ⟨fragment, rfl⟩
  | error fault => exact absurd h (compile_error.mp hc).1

end Interval

/-- An interval in force has its dates. -/
def Parameters.HasDates (zone : Zone) (parameters : Parameters) : Prop :=
  ∀ interval ∈ parameters.interval, interval.HasDates zone

-- ---------------------------------------------------------------------------
-- Statements
-- ---------------------------------------------------------------------------

section
variable {options : StatementOptions} {schema : Option String} {overrides : Overrides}
  {parameters : Parameters} {composition : Composition}

theorem Composition.selectList_ok :
    composition.selectList options = .ok fragment ↔
      ∃ columns, List.Forall₂ (fun entry column =>
          entry.2.compile options.maxDepth entry.1 = .ok column)
          composition.columns.entries columns ∧
        Fragment.joined [.comma, .space] columns = fragment := by
  simp only [Composition.selectList, map_ok, mapM_ok]

theorem Composition.conditions_ok :
    Composition.conditions options parameters = .ok fragments ↔
      ∃ dates, List.Forall₂ (fun interval fragment => interval.compile options = .ok fragment)
          parameters.interval.toList dates ∧
        ∃ filters, List.Forall₂ (fun filter fragment =>
            filter.predicate.compile options.maxDepth = .ok fragment)
            parameters.rowFilters filters ∧
          dates ++ filters = fragments := by
  simp only [Composition.conditions, bind_ok, pure_ok, returning_ok, mapM_ok]

/-- What holds of date filters and of the predicates of row filters holds of all conditions. -/
theorem Composition.conditions_induction {P : Fragment → Prop}
    (since : ∀ count, P (Fragment.since options.dateColumn count))
    (between : ∀ first last, P (Fragment.between options.dateColumn first last))
    (filter : ∀ filter ∈ parameters.rowFilters, ∀ {fragment},
      filter.predicate.compile options.maxDepth = .ok fragment → P fragment)
    (h : Composition.conditions options parameters = .ok fragments) :
    ∀ fragment ∈ fragments, P fragment := by
  obtain ⟨dates, hd, filters, hf, rfl⟩ := Composition.conditions_ok.mp h
  have hm := (List.forall₂_and_left _ _).mpr ⟨filter, hf⟩
  rw [List.forall_mem_append]
  exact ⟨forall_mem_of_forall₂ hd (Interval.compile_cases since between),
    forall_mem_of_forall₂ hm fun ⟨hp, hc⟩ => hp hc⟩

theorem Composition.compile_ok :
    composition.compile options used parameters = .ok statement ↔
      ∃ columns, composition.selectList options = .ok columns ∧
        ∃ conditions, Composition.conditions options parameters = .ok conditions ∧
          [.select, .space] ++ columns ++
            [.space, .fromTable, .space, .qualified used composition.table] ++
            Composition.restriction conditions = statement := by
  simp only [Composition.compile, bind_ok, pure_ok, returning_ok]

theorem Composition.compose_ok :
    composition.compose options schema overrides = .ok (used, statement) ↔
      composition.schemaFor? schema = some used ∧ composition.columns.isEmpty = false ∧
        composition.compile options used (overrides.apply composition.parameters) =
          .ok statement := by
  rw [Composition.compose]
  cases composition.schemaFor? schema with
  | none => simp
  | some name =>
    cases composition.columns.isEmpty with
    | true => simp
    | false =>
      simp only [Bool.false_eq_true, if_false, map_ok, Prod.mk.injEq, Option.some.injEq, true_and]
      constructor
      · rintro ⟨statement, hc, rfl, rfl⟩
        exact ⟨rfl, hc⟩
      · rintro ⟨rfl, hc⟩
        exact ⟨statement, hc, rfl, rfl⟩

end

end DeclarativeSql
