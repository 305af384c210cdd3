import DeclarativeSql.Check.Problem
import DeclarativeSql.Query.Document
import DeclarativeSql.Text.Basic

/-!
# Rules for documents

What a document must meet beyond its form. Every check lists all the problems of one part of
a document, in the order of the document; a part without problems is accepted.
-/

namespace DeclarativeSql

namespace Check

def maxColumns : Nat := 128

def maxRowFilters : Nat := 16

def minGroupSize : Nat := 2

def minClauses : Nat := 2

def defaultDepth : Nat := 64

/-- The problems of the items of a list, each with its index from `start` on. -/
def items (check : Place → α → List Problem) (place : Place) (start : Nat) :
    List α → List Problem
  | [] => []
  | item :: rest => check (.item place start) item ++ items check place (start + 1) rest

def notEmpty (place : Place) (text : String) : List Problem :=
  if text = "" then [.empty place] else []

def notBlank (place : Place) (text : String) : List Problem :=
  if Text.isBlank text then [.empty place] else []

def atLeast (least : Nat) (place : Place) (found : Nat) : List Problem :=
  if found < least then [.tooFew place least found] else []

def atMost (most : Nat) (place : Place) (found : Nat) : List Problem :=
  if most < found then [.tooMany place most found] else []

end Check

open Check

def Condition.problems (place : Place) (condition : Condition) : List Problem :=
  notBlank (.member place "column") condition.column ++
    match Operator.ofName? condition.operator with
    | none => [.unknownOperator (.member place "operator") condition.operator]
    | some operator =>
      if operator.takesValue && condition.value.isNull then
        [.missingValue (.member place "value") operator]
      else []

mutual
/-- The problems of a predicate that stands `depth` levels down. -/
def Predicate.problemsAt (limit depth : Nat) (place : Place) : Predicate → List Problem
  | .leaf condition =>
    if limit < depth then [.tooDeep place limit] else condition.problems place
  | .group connective children =>
    if limit < depth then [.tooDeep place limit]
    else
      atLeast minGroupSize (.member place connective.name) children.length ++
        Predicate.problemsOfAll limit (depth + 1) (.member place connective.name) 0 children
def Predicate.problemsOfAll (limit depth : Nat) (place : Place) (start : Nat) :
    List Predicate → List Problem
  | [] => []
  | child :: rest =>
    child.problemsAt limit depth (.item place start) ++
      Predicate.problemsOfAll limit depth place (start + 1) rest
end

def Predicate.problems (limit : Nat) (place : Place) (predicate : Predicate) : List Problem :=
  predicate.problemsAt limit 1 place

def Outcome.problems (place : Place) : Outcome → List Problem
  | .column name => notEmpty (.member place "column") name
  | .value literal => if literal.isNull then [.nullValue (.member place "value")] else []

def CaseClause.problems (limit : Nat) (place : Place) : CaseClause → List Problem
  | .branch condition outcome =>
    condition.problems limit place ++ outcome.problems (.member place "then")
  | .otherwise outcome => outcome.problems (.member place "default")

def Column.problems (limit : Nat) (place : Place) : Column → List Problem
  | .raw sql => notBlank (.member place "sql") sql
  | .cased clauses =>
    atLeast minClauses (.member place "cases") clauses.length ++
      items (CaseClause.problems limit) (.member place "cases") 0 clauses

def Columns.problems (limit : Nat) (place : Place) (columns : Columns) : List Problem :=
  atLeast 1 place columns.size ++ atMost maxColumns place columns.size ++
    columns.entries.flatMap fun entry =>
      notEmpty (.nameOf place) entry.1 ++ entry.2.problems limit (.member place entry.1)

def FilterMetadata.problems (place : Place) (metadata : FilterMetadata) : List Problem :=
  (if metadata.templateType ≠ RowFilter.template then [.wrongTemplate place metadata.templateType]
    else []) ++
    notEmpty (.member place "identifier") metadata.identifier

def RowFilter.problems (limit : Nat) (place : Place) (filter : RowFilter) : List Problem :=
  filter.metadata.problems (.member place "metadata") ++ filter.predicate.problems limit place

def RowFilter.problemsOfAll (limit : Nat) (place : Place) (filters : List RowFilter) :
    List Problem :=
  atMost maxRowFilters place filters.length ++ items (RowFilter.problems limit) place 0 filters

def Composition.problems (limit : Nat) (composition : Composition) : List Problem :=
  let place := Place.root "composition"
  notBlank (.member place "table") composition.table ++
    composition.columns.problems limit (.member place "columns") ++
    RowFilter.problemsOfAll limit (.member (.member place "parameters") "rowFilters")
      composition.parameters.rowFilters

def Overrides.problems (limit : Nat) (overrides : Overrides) : List Problem :=
  RowFilter.problemsOfAll limit (.member (.root "parameters") "rowFilters")
    (overrides.rowFilters.getD [])

def Source.problems (limit : Nat) : Source → List Problem
  | .raw sql => notBlank (.root "query") sql
  | .composition content => content.problems limit

def Document.problems (limit : Nat) (document : Document) : List Problem :=
  (match document.source? with
    | none => [.ambiguousSource]
    | some source => source.problems limit) ++
    (document.description.elim [] (notEmpty (.root "description")))

/-- The query of a document without problems. -/
def Query.ofDocument (limit : Nat) (document : Document) : Except (List Problem) Query :=
  match document.problems limit, document.source? with
  | [], some source => .ok ⟨source, document.description⟩
  | [], none => .error [.ambiguousSource]
  | problems, _ => .error problems

end DeclarativeSql
