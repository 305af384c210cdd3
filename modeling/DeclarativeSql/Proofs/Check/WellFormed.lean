import Mathlib.Tactic.MkIffOfInductiveProp
import DeclarativeSql.Proofs.Check.Accepted

/-!
# Well-formed documents

What a stored document must look like, part by part and without regard to how it is checked.
`check_accepts_well_formed_documents`: the check has no problem with a document exactly when
the document is well-formed. So no rule is forgotten anywhere, and no other rule is enforced.
-/

namespace DeclarativeSql

-- ---------------------------------------------------------------------------
-- The rules
-- ---------------------------------------------------------------------------

/-- Only a test for null does without a value. -/
@[mk_iff]
structure Condition.WellFormed (condition : Condition) : Prop where
  column : Text.isBlank condition.column = false
  comparison : ∃ operator : Operator, operator.name = condition.operator ∧
    (operator = .isNull ∨ operator = .isNotNull ∨ condition.value ≠ .null)

@[mk_iff]
structure Predicate.WellFormed (limit : Nat) (p : Predicate) : Prop where
  height : p.height ≤ limit
  conditions : ∀ condition ∈ p.leaves, condition.WellFormed
  groups : ∀ members ∈ p.groups, 2 ≤ members.length

@[mk_iff]
inductive Outcome.WellFormed : Outcome → Prop
  | value {literal : Value} : literal ≠ .null → WellFormed (.value literal)
  | column {name : String} : name ≠ "" → WellFormed (.column name)

@[mk_iff]
inductive CaseClause.WellFormed (limit : Nat) : CaseClause → Prop
  | branch {condition : Predicate} {outcome : Outcome} :
      condition.WellFormed limit → outcome.WellFormed → WellFormed limit (.branch condition outcome)
  | otherwise {outcome : Outcome} : outcome.WellFormed → WellFormed limit (.otherwise outcome)

@[mk_iff]
inductive Column.WellFormed (limit : Nat) : Column → Prop
  | raw {sql : String} : Text.isBlank sql = false → WellFormed limit (.raw sql)
  | cased {clauses : List CaseClause} : 2 ≤ clauses.length →
      (∀ clause ∈ clauses, clause.WellFormed limit) → WellFormed limit (.cased clauses)

@[mk_iff]
structure Columns.WellFormed (limit : Nat) (columns : Columns) : Prop where
  nonempty : 1 ≤ columns.size
  notTooMany : columns.size ≤ 128
  entries : ∀ entry ∈ columns.entries, entry.1 ≠ "" ∧ entry.2.WellFormed limit

@[mk_iff]
structure RowFilter.WellFormed (limit : Nat) (filter : RowFilter) : Prop where
  template : filter.metadata.templateType = "row_filter"
  identifier : filter.metadata.identifier ≠ ""
  predicate : filter.predicate.WellFormed limit

@[mk_iff]
structure Composition.WellFormed (limit : Nat) (composition : Composition) : Prop where
  table : Text.isBlank composition.table = false
  columns : composition.columns.WellFormed limit
  notTooMany : composition.parameters.rowFilters.length ≤ 16
  rowFilters : ∀ filter ∈ composition.parameters.rowFilters, filter.WellFormed limit

/-- A query or a composition, but not both. -/
@[mk_iff]
structure Document.WellFormed (limit : Nat) (document : Document) : Prop where
  source :
    (∃ sql, document.query = some sql ∧ document.composition = none ∧
        Text.isBlank sql = false) ∨
      ∃ composition, document.query = none ∧ document.composition = some composition ∧
        composition.WellFormed limit
  description : ∀ text ∈ document.description, text ≠ ""

-- ---------------------------------------------------------------------------
-- Predicates
-- ---------------------------------------------------------------------------

theorem Operator.ofName?_eq_some {name : String} {operator : Operator} :
    ofName? name = some operator ↔ operator.name = name :=
  ⟨name_of_ofName?, fun h => h ▸ ofName?_name operator⟩

theorem Operator.takesValue_imp {operator : Operator} {value : Value} :
    (operator.takesValue = true → value.isNull = false) ↔
      operator = .isNull ∨ operator = .isNotNull ∨ value ≠ .null := by
  have hv : value.isNull = false ↔ value ≠ .null := by cases value <;> simp [Value.isNull]
  cases operator <;> simp [Operator.takesValue, hv]

theorem Condition.sound_iff_wellFormed (condition : Condition) :
    condition.Sound ↔ condition.WellFormed := by
  have h : (∃ operator, Operator.ofName? condition.operator = some operator ∧
      (operator.takesValue = true → condition.value.isNull = false)) ↔
        ∃ operator : Operator, operator.name = condition.operator ∧
          (operator = .isNull ∨ operator = .isNotNull ∨ condition.value ≠ .null) := by
    simp only [Operator.ofName?_eq_some, Operator.takesValue_imp]
  exact ⟨fun ⟨hc, ho⟩ => ⟨hc, h.mp ho⟩, fun ⟨hc, ho⟩ => ⟨hc, h.mpr ho⟩⟩

theorem Predicate.accepted_iff_wellFormed (limit : Nat) (p : Predicate) :
    p.Accepted limit ↔ p.WellFormed limit := by
  constructor
  · rintro ⟨hh, hl, hg⟩
    exact ⟨hh, fun condition hm => condition.sound_iff_wellFormed.mp (hl condition hm), hg⟩
  · rintro ⟨hh, hl, hg⟩
    exact ⟨hh, fun condition hm => condition.sound_iff_wellFormed.mpr (hl condition hm), hg⟩

-- ---------------------------------------------------------------------------
-- Columns and row filters
-- ---------------------------------------------------------------------------

theorem Outcome.problems_eq_nil (place : Place) (outcome : Outcome) :
    outcome.problems place = [] ↔ outcome.WellFormed := by
  rw [Outcome.wellFormed_iff]
  cases outcome with
  | column name => simp [Outcome.problems, Check.notEmpty_eq_nil]
  | value literal => cases literal <;> simp [Outcome.problems, Value.isNull]

theorem CaseClause.problems_eq_nil (limit : Nat) (place : Place) (clause : CaseClause) :
    clause.problems limit place = [] ↔ clause.WellFormed limit := by
  rw [CaseClause.wellFormed_iff]
  cases clause with
  | branch condition outcome =>
    simp [CaseClause.problems, Predicate.problems_eq_nil, Predicate.accepted_iff_wellFormed,
      Outcome.problems_eq_nil]
  | otherwise outcome => simp [CaseClause.problems, Outcome.problems_eq_nil]

theorem Column.problems_eq_nil (limit : Nat) (place : Place) (column : Column) :
    column.problems limit place = [] ↔ column.WellFormed limit := by
  rw [Column.wellFormed_iff]
  cases column with
  | raw sql => simp [Column.problems, Check.notBlank_eq_nil]
  | cased clauses =>
    rw [Column.problems, List.append_eq_nil_iff, Check.atLeast_eq_nil,
      Check.items_eq_nil (CaseClause.problems_eq_nil limit)]
    simp [Check.minClauses]

theorem Columns.problems_eq_nil (limit : Nat) (place : Place) (columns : Columns) :
    columns.problems limit place = [] ↔ columns.WellFormed limit := by
  rw [Columns.problems, List.append_eq_nil_iff, List.append_eq_nil_iff, Check.atLeast_eq_nil,
    Check.atMost_eq_nil, List.flatMap_eq_nil_iff, Columns.wellFormed_iff, and_assoc]
  simp only [List.append_eq_nil_iff, Check.notEmpty_eq_nil, Column.problems_eq_nil]
  rfl

theorem RowFilter.accepted_iff_wellFormed (limit : Nat) (filter : RowFilter) :
    filter.Accepted limit ↔ filter.WellFormed limit := by
  rw [RowFilter.wellFormed_iff, ← Predicate.accepted_iff_wellFormed]
  constructor
  · rintro ⟨⟨ht, hi⟩, hp⟩
    exact ⟨ht, hi, hp⟩
  · rintro ⟨ht, hi, hp⟩
    exact ⟨⟨ht, hi⟩, hp⟩

-- ---------------------------------------------------------------------------
-- Documents
-- ---------------------------------------------------------------------------

theorem Composition.problems_eq_nil (limit : Nat) (composition : Composition) :
    composition.problems limit = [] ↔ composition.WellFormed limit := by
  simp only [Composition.problems, List.append_eq_nil_iff, Check.notBlank_eq_nil,
    Columns.problems_eq_nil, RowFilter.problemsOfAll_eq_nil, RowFilter.accepted_iff_wellFormed,
    Composition.wellFormed_iff, and_assoc]
  rfl

theorem check_accepts_well_formed_documents (limit : Nat) (document : Document) :
    document.problems limit = [] ↔ document.WellFormed limit := by
  obtain ⟨query, composition, description⟩ := document
  have hdescription (place : Place) :
      description.elim [] (Check.notEmpty place) = [] ↔ ∀ text ∈ description, text ≠ "" := by
    cases description <;> simp [Check.notEmpty_eq_nil]
  rw [Document.problems, List.append_eq_nil_iff, hdescription, Document.wellFormed_iff]
  refine and_congr_left fun _ => ?_
  cases query <;> cases composition <;>
    simp [Document.source?, Source.problems, Check.notBlank_eq_nil, Composition.problems_eq_nil]

end DeclarativeSql
