import DeclarativeSql.Query.Column
import DeclarativeSql.Wire.Predicate

/-!
# The written form of columns

Clauses and outcomes refuse members that they do not know and combinations that make no
sense. A column is read in full first, and takes the first form that fits; a fault inside
it is not told apart from any other.
-/

namespace DeclarativeSql

namespace Outcome

def fields : Fields [Option Value, Option String] :=
  .cons (optional "value" (Node.asOption Value.ofNode) none) <|
  .cons (optional "column" (Node.asOption Node.asString) none) .nil

def ofParts : Option Value → Option String → Decoded Outcome
  | some literal, none => .ok (.value literal)
  | none, some name => .ok (.column name)
  | some _, some _ => .error (.rejected "then value sets both 'value' and 'column'")
  | none, none => .error (.rejected "then value requires a non-null 'value' or a 'column'")

def ofNode (node : Node) : Decoded Outcome := do
  let (literal, name, ()) ← fields.decode true node
  ofParts literal name

def toJson : Outcome → Json
  | .value literal => .object [("value", literal.toJson)]
  | .column name => .object [("column", .string name)]

end Outcome

namespace CaseClause

def fields : Fields [Option Condition, Option (List Predicate), Option (List Predicate),
    Option Outcome, Option Outcome] :=
  .cons (optional "when" (Node.asOption Condition.ofNode) none) <|
  .cons (optional "and" (Node.asOption Predicate.groupOfNode) none) <|
  .cons (optional "or" (Node.asOption Predicate.groupOfNode) none) <|
  .cons (optional "then" (Node.asOption Outcome.ofNode) none) <|
  .cons (optional "default" (Node.asOption Outcome.ofNode) none) .nil

/-- At most one of the three forms of a predicate. -/
def predicateOfParts : Option Condition → Option (List Predicate) → Option (List Predicate) →
    Decoded (Option Predicate)
  | some condition, none, none => .ok (some (.leaf condition))
  | none, some children, none => .ok (some (.group .and children))
  | none, none, some children => .ok (some (.group .or children))
  | none, none, none => .ok none
  | _, _, _ => .error (.rejected "case clause may only contain one of 'when', 'and' or 'or'")

def ofParts : Option Predicate → Option Outcome → Option Outcome → Decoded CaseClause
  | some condition, some outcome, none => .ok (.branch condition outcome)
  | none, none, some outcome => .ok (.otherwise outcome)
  | some _, none, _ => .error (.rejected "case clause is missing 'then'")
  | none, some _, _ =>
    .error (.rejected "case clause has 'then' but no 'when', 'and' or 'or'")
  | some _, some _, some _ =>
    .error (.rejected "case clause cannot combine 'default' with a condition")
  | none, none, none =>
    .error (.rejected "case clause requires 'when', 'and', 'or' or 'default'")

def ofNode (node : Node) : Decoded CaseClause := do
  let (condition, conjuncts, disjuncts, outcome, fallback, ()) ← fields.decode true node
  ofParts (← predicateOfParts condition conjuncts disjuncts) outcome fallback

/-- A clause holds the only member of its condition beside the outcome. -/
def conditionMember : Predicate → String × Json
  | .leaf condition => ("when", condition.toJson)
  | .group connective children => (connective.name, .array (Predicate.allToJson children))

def toJson : CaseClause → Json
  | .branch condition outcome => .object [conditionMember condition, ("then", outcome.toJson)]
  | .otherwise outcome => .object [("default", outcome.toJson)]

end CaseClause

namespace Column

def rawFields : Fields [String] :=
  .cons (required "sql" Node.asString) .nil

def casedFields : Fields [List CaseClause] :=
  .cons (required "cases" (Node.asList CaseClause.ofNode)) .nil

/-- A piece of SQL, or else clauses. -/
def ofMembers? (members : List Member) : Option Column :=
  match rawFields.ofMembers false members with
  | .ok (sql, ()) => some (.raw sql)
  | .error _ =>
    match casedFields.ofMembers false members with
    | .ok (clauses, ()) => some (.cased clauses)
    | .error _ => none

def ofNode (node : Node) : Decoded Column := do
  node.inFull
  match node with
  | .object members =>
    match ofMembers? members with
    | some column => return column
    | none => throw (.noAlternative "ColumnExpression")
  | _ => throw (.noAlternative "ColumnExpression")

def toJson : Column → Json
  | .raw sql => .object [("sql", .string sql)]
  | .cased clauses => .object [("cases", .array (clauses.map CaseClause.toJson))]

end Column

namespace Columns

def takeMembers : Columns → List Member → Decoded Columns
  | columns, [] => .ok columns
  | _, (none, _) :: _ => .error .malformed
  | columns, (some name, node) :: rest => do
    takeMembers (columns.insert name (← Column.ofNode node)) rest

def ofNode : Node → Decoded Columns
  | .object members => takeMembers .empty members
  | _ => .error .malformed

def toJson (columns : Columns) : Json :=
  .object (columns.entries.map fun entry => (entry.1, entry.2.toJson))

end Columns

end DeclarativeSql
