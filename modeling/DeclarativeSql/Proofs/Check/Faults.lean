import DeclarativeSql.Proofs.Statement.Compiled
import DeclarativeSql.Statement.Compose

/-!
# Checking and compiling find the same first fault

Checking lists every problem, compiling stops at the first fault. `faults` keeps the problems
that compiling knows too; the first of them is the fault of the compilation, part by part and
in the order of the composition. Places play no role in it.
-/

namespace DeclarativeSql

/-- A problem that stops a compilation, as the fault it is there. -/
def Problem.fault? : Problem → Option CompileError
  | .unknownOperator _ name => some (.unknownOperator name)
  | .missingValue _ operator => some (.missingValue operator)
  | .tooDeep _ limit => some (.tooDeep limit)
  | _ => none

def faults (problems : List Problem) : List CompileError :=
  problems.filterMap Problem.fault?

@[simp] theorem faults_nil : faults [] = [] := rfl

@[simp] theorem faults_append (first second : List Problem) :
    faults (first ++ second) = faults first ++ faults second :=
  List.filterMap_append

-- ---------------------------------------------------------------------------
-- Problems of other kinds
-- ---------------------------------------------------------------------------

@[simp] theorem faults_notEmpty (place : Place) (text : String) :
    faults (Check.notEmpty place text) = [] := by
  unfold Check.notEmpty
  split <;> rfl

@[simp] theorem faults_notBlank (place : Place) (text : String) :
    faults (Check.notBlank place text) = [] := by
  unfold Check.notBlank
  split <;> rfl

@[simp] theorem faults_atLeast (least : Nat) (place : Place) (found : Nat) :
    faults (Check.atLeast least place found) = [] := by
  unfold Check.atLeast
  split <;> rfl

@[simp] theorem faults_atMost (most : Nat) (place : Place) (found : Nat) :
    faults (Check.atMost most place found) = [] := by
  unfold Check.atMost
  split <;> rfl

@[simp] theorem faults_outcome (place : Place) (outcome : Outcome) :
    faults (outcome.problems place) = [] := by
  cases outcome with
  | column name => simp [Outcome.problems]
  | value literal =>
    simp only [Outcome.problems]
    split <;> rfl

@[simp] theorem faults_metadata (place : Place) (metadata : FilterMetadata) :
    faults (metadata.problems place) = [] := by
  simp only [FilterMetadata.problems, faults_append, faults_notEmpty, List.append_nil]
  split <;> rfl

-- ---------------------------------------------------------------------------
-- Predicates
-- ---------------------------------------------------------------------------

theorem Condition.head_faults (place : Place) (condition : Condition) :
    (faults (condition.problems place)).head? = fault? condition.compile := by
  simp only [Condition.problems, Condition.compile, faults_append, faults_notBlank, List.nil_append]
  cases Operator.ofName? condition.operator with
  | none => rfl
  | some operator =>
    cases ht : operator.takesValue <;> cases hn : condition.value.isNull <;>
      simp [Operator.compile, ht, hn, faults, Problem.fault?]

mutual
theorem Predicate.head_faults_problemsAt (limit depth : Nat) (place : Place) :
    (p : Predicate) →
      (faults (p.problemsAt limit depth place)).head? = fault? (p.compileAt limit depth)
  | .leaf condition => by
    simp only [Predicate.problemsAt, Predicate.compileAt]
    split
    · rfl
    · exact condition.head_faults place
  | .group connective children => by
    simp only [Predicate.problemsAt, Predicate.compileAt]
    split
    · rfl
    · simp only [faults_append, faults_atLeast, List.nil_append, fault?_map]
      exact Predicate.head_faults_problemsOfAll limit (depth + 1) _ 0 children
theorem Predicate.head_faults_problemsOfAll (limit depth : Nat) (place : Place) (start : Nat) :
    (children : List Predicate) →
      (faults (Predicate.problemsOfAll limit depth place start children)).head? =
        fault? (Predicate.compileAllAt limit depth children)
  | [] => rfl
  | child :: rest => by
    simp only [Predicate.problemsOfAll, Predicate.compileAllAt, faults_append, List.head?_append,
      fault?_bind_bind_pure]
    rw [Predicate.head_faults_problemsAt limit depth _ child,
      Predicate.head_faults_problemsOfAll limit depth place (start + 1) rest]
end

theorem Predicate.head_faults (limit : Nat) (place : Place) (p : Predicate) :
    (faults (p.problems limit place)).head? = fault? (p.compile limit) :=
  p.head_faults_problemsAt limit 1 place

-- ---------------------------------------------------------------------------
-- Columns and row filters
-- ---------------------------------------------------------------------------

/-- What the first fault of a list is, when each item has one that its place does not change. -/
theorem head_faults_items {check : Place → α → List Problem} {fault : α → Option CompileError}
    (h : ∀ place item, (faults (check place item)).head? = fault item)
    (place : Place) (start : Nat) (l : List α) :
    (faults (Check.items check place start l)).head? = l.findSome? fault := by
  induction l generalizing start with
  | nil => rfl
  | cons item rest ih =>
    rw [Check.items, faults_append, List.head?_append, h, ih, List.findSome?_cons]
    cases fault item <;> rfl

/-- The fault of a clause; one without a condition has none. -/
def CaseClause.fault? (limit : Nat) : CaseClause → Option CompileError
  | .branch condition _ => DeclarativeSql.fault? (condition.compile limit)
  | .otherwise _ => none

theorem CaseClause.head_faults (limit : Nat) (place : Place) (clause : CaseClause) :
    (faults (clause.problems limit place)).head? = clause.fault? limit := by
  cases clause with
  | branch condition outcome =>
    simp only [CaseClause.problems, faults_append, faults_outcome, List.append_nil]
    exact condition.head_faults limit place
  | otherwise outcome => simp [CaseClause.problems, CaseClause.fault?]

theorem CaseClause.fault?_compileBranches (limit : Nat) (clauses : List CaseClause) :
    DeclarativeSql.fault? (CaseClause.compileBranches limit clauses) =
      clauses.findSome? (CaseClause.fault? limit) := by
  induction clauses with
  | nil => rfl
  | cons clause rest ih =>
    cases clause with
    | otherwise outcome =>
      simp only [CaseClause.compileBranches, List.findSome?_cons, CaseClause.fault?]
      exact ih
    | branch condition outcome =>
      simp only [CaseClause.compileBranches, List.findSome?_cons, CaseClause.fault?,
        fault?_bind_bind_pure, ih]
      cases DeclarativeSql.fault? (condition.compile limit) <;> rfl

theorem Column.head_faults (limit : Nat) (place : Place) (name : String) (column : Column) :
    (faults (column.problems limit place)).head? = fault? (column.compile limit name) := by
  cases column with
  | raw sql => simp [Column.problems, Column.compile]
  | cased clauses =>
    simp only [Column.problems, Column.compile, CaseClause.compileAll, faults_append,
      faults_atLeast, List.nil_append, fault?_map, CaseClause.fault?_compileBranches]
    exact head_faults_items (CaseClause.head_faults limit) _ 0 clauses

theorem Columns.head_faults (options : StatementOptions) (place : Place)
    (composition : Composition) :
    (faults (composition.columns.problems options.maxDepth place)).head? =
      fault? (composition.selectList options) := by
  simp only [Columns.problems, Composition.selectList, faults_append, faults_atLeast, faults_atMost,
    List.nil_append, fault?_map, fault?_mapM]
  induction composition.columns.entries with
  | nil => rfl
  | cons entry rest ih =>
    rw [List.flatMap_cons, faults_append, List.head?_append, ih, List.findSome?_cons, faults_append,
      faults_notEmpty, List.nil_append, Column.head_faults options.maxDepth _ entry.1]
    cases fault? (entry.2.compile options.maxDepth entry.1) <;> rfl

theorem RowFilter.head_faults (limit : Nat) (place : Place) (filter : RowFilter) :
    (faults (filter.problems limit place)).head? = fault? (filter.predicate.compile limit) := by
  simp only [RowFilter.problems, faults_append, faults_metadata, List.nil_append]
  exact filter.predicate.head_faults limit place

theorem RowFilter.head_faults_problemsOfAll (limit : Nat) (place : Place)
    (filters : List RowFilter) :
    (faults (RowFilter.problemsOfAll limit place filters)).head? =
      fault? (filters.mapM fun filter => filter.predicate.compile limit) := by
  rw [RowFilter.problemsOfAll, faults_append, faults_atMost, List.nil_append, fault?_mapM]
  exact head_faults_items (RowFilter.head_faults limit) place 0 filters

/-- Faults of the columns come before those of the row filters, in a check as in a statement. -/
theorem Composition.head_faults (options : StatementOptions) (composition : Composition) :
    (faults (composition.problems options.maxDepth)).head? =
      (fault? (composition.selectList options)).or
        (fault? (composition.parameters.rowFilters.mapM fun filter =>
          filter.predicate.compile options.maxDepth)) := by
  simp only [Composition.problems, faults_append, faults_notBlank, List.nil_append,
    List.head?_append]
  rw [Columns.head_faults, RowFilter.head_faults_problemsOfAll]

end DeclarativeSql
