import DeclarativeSql.Query.Document

/-!
# Queries without their texts

`withoutTexts` empties every text that is a value: in conditions and in the outcomes of
clauses. Two inputs that agree without their texts differ in nothing but these.
-/

namespace DeclarativeSql

def Value.withoutTexts : Value → Value
  | .text _ => .text ""
  | literal => literal

def Condition.withoutTexts (condition : Condition) : Condition :=
  { condition with value := condition.value.withoutTexts }

mutual
def Predicate.withoutTexts : Predicate → Predicate
  | .leaf condition => .leaf condition.withoutTexts
  | .group connective children => .group connective (Predicate.allWithoutTexts children)
def Predicate.allWithoutTexts : List Predicate → List Predicate
  | [] => []
  | child :: rest => child.withoutTexts :: Predicate.allWithoutTexts rest
end

def Outcome.withoutTexts : Outcome → Outcome
  | .value literal => .value literal.withoutTexts
  | .column name => .column name

def CaseClause.withoutTexts : CaseClause → CaseClause
  | .branch condition outcome => .branch condition.withoutTexts outcome.withoutTexts
  | .otherwise outcome => .otherwise outcome.withoutTexts

def Column.withoutTexts : Column → Column
  | .raw sql => .raw sql
  | .cased clauses => .cased (clauses.map CaseClause.withoutTexts)

def Columns.entryWithoutTexts (entry : String × Column) : String × Column :=
  (entry.1, entry.2.withoutTexts)

theorem Columns.names_withoutTexts (entries : List (String × Column)) :
    (entries.map Columns.entryWithoutTexts).map Prod.fst = entries.map Prod.fst := by
  rw [List.map_map]
  rfl

def Columns.withoutTexts (columns : Columns) : Columns where
  entries := columns.entries.map Columns.entryWithoutTexts
  distinct := by
    rw [Columns.names_withoutTexts]
    exact columns.distinct

def RowFilter.withoutTexts (filter : RowFilter) : RowFilter :=
  { filter with predicate := filter.predicate.withoutTexts }

def Parameters.withoutTexts (parameters : Parameters) : Parameters :=
  { parameters with rowFilters := parameters.rowFilters.map RowFilter.withoutTexts }

def Overrides.withoutTexts (overrides : Overrides) : Overrides :=
  { overrides with rowFilters := overrides.rowFilters.map (List.map RowFilter.withoutTexts) }

def Composition.withoutTexts (composition : Composition) : Composition :=
  { composition with
    columns := composition.columns.withoutTexts
    parameters := composition.parameters.withoutTexts }

def Query.withoutTexts (query : Query) : Query :=
  query.mapComposition Composition.withoutTexts

-- ---------------------------------------------------------------------------
-- What stays
-- ---------------------------------------------------------------------------

@[simp] theorem Value.isNull_withoutTexts (literal : Value) :
    literal.withoutTexts.isNull = literal.isNull := by
  cases literal <;> rfl

@[simp] theorem Columns.isEmpty_withoutTexts (columns : Columns) :
    columns.withoutTexts.isEmpty = columns.isEmpty := by
  simp only [Columns.isEmpty, Columns.withoutTexts, List.isEmpty_map]

/-- Keys that a change leaves alone decide the same merge before and after it. -/
theorem mergeBy_map [DecidableEq κ] {key : α → κ} {change : α → α}
    (h : ∀ item, key (change item) = key item) (primary secondary : List α) :
    mergeBy key (primary.map change) (secondary.map change) =
      (mergeBy key primary secondary).map change := by
  have hk : (primary.map change).map key = primary.map key := by
    rw [List.map_map]
    exact List.map_congr_left fun item _ => h item
  simp only [mergeBy, hk, List.map_append, List.filter_map, Function.comp_def, h]

theorem RowFilter.merge_withoutTexts (primary secondary : List RowFilter) :
    RowFilter.merge (primary.map RowFilter.withoutTexts) (secondary.map RowFilter.withoutTexts) =
      (RowFilter.merge primary secondary).map RowFilter.withoutTexts := by
  have h (filter : RowFilter) : filter.withoutTexts.identifier = filter.identifier := rfl
  exact mergeBy_map h primary secondary

theorem Overrides.apply_withoutTexts (overrides : Overrides) (defaults : Parameters) :
    overrides.withoutTexts.apply defaults.withoutTexts =
      (overrides.apply defaults).withoutTexts := by
  have hr : (overrides.rowFilters.map (List.map RowFilter.withoutTexts)).getD [] =
      (overrides.rowFilters.getD []).map RowFilter.withoutTexts := by
    cases overrides.rowFilters <;> rfl
  simp only [Overrides.apply, Overrides.withoutTexts, Parameters.withoutTexts, hr,
    RowFilter.merge_withoutTexts]

end DeclarativeSql
