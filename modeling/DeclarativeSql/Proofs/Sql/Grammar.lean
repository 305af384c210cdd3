import DeclarativeSql.Query.Column
import DeclarativeSql.Sql.Fragment

/-!
# The grammar of statements

The productions by which a statement is put together, spaces included. How many branches a case
expression may have is left open: `Branches clauses n` allows `n` of them for a column with these
clauses. SQL asks for at least one, whatever the clauses are (`SqlBranches`); a composition has
one for each clause with a condition (`ClauseBranches`).
-/

namespace DeclarativeSql

def CaseClause.isBranch : CaseClause → Bool
  | .branch _ _ => true
  | .otherwise _ => false

namespace Grammar

/-- One or more parts with a separator between them. -/
inductive Separated (separator : Fragment) (Part : Fragment → Prop) : Fragment → Prop
  | last : Part part → Separated separator Part part
  | more : Part part → Separated separator Part rest →
      Separated separator Part (part ++ separator ++ rest)

/-- A column is tested for null, compared with a literal or matched with a pattern. -/
inductive Comparison : Fragment → Prop
  | null : test = .isNull ∨ test = .isNotNull → Comparison [.column name, .space, test]
  | number : Comparison [.column name, .space, .comparison symbol, .space, .number value]
  | text : Comparison [.column name, .space, .comparison symbol, .space, .string value]
  | pattern : test = .like ∨ test = .ilike →
      Comparison [.column name, .space, test, .space, .string value]

/-- A comparison, or two or more predicates under one connective in parentheses. -/
inductive Predicate : Fragment → Prop
  | leaf : Comparison fragment → Predicate fragment
  | conjunction : Predicate first → Separated [.space, .and, .space] Predicate others →
      Predicate (.openParen :: first ++ [.space, .and, .space] ++ others ++ [.closeParen])
  | disjunction : Predicate first → Separated [.space, .or, .space] Predicate others →
      Predicate (.openParen :: first ++ [.space, .or, .space] ++ others ++ [.closeParen])

/-- What a branch yields. -/
inductive Result : Token → Prop
  | column : Result (.column name)
  | number : Result (.number value)
  | text : Result (.string value)
  | null : Result .null

/-- As many branches as the number says. -/
inductive Cases : Nat → Fragment → Prop
  | none : Cases 0 []
  | branch : Predicate condition → Result result → Cases n rest →
      Cases (n + 1) ([.space, .caseWhen, .space] ++ condition ++
        [.space, .caseThen, .space, result] ++ rest)

section
variable (Branches : List CaseClause → Nat → Prop)

/-- Raw SQL, or a case expression under the name of its column. -/
inductive Item : String × Column → Fragment → Prop
  | raw : Item (name, .raw sql) [.raw sql]
  | cased : Cases n branches → Branches clauses n → Result result →
      Item (name, .cased clauses)
        (.caseStart :: branches ++ [.space, .caseElse, .space, result, .space, .caseEnd,
          .space, .asName, .space, .identifier name])

/-- An item for each column, in the order of the columns. -/
inductive Items : List (String × Column) → Fragment → Prop
  | last : Item Branches entry item → Items [entry] item
  | more : Item Branches entry item → Items entries rest →
      Items (entry :: entries) (item ++ [.comma, .space] ++ rest)

/-- A date filter or a predicate. -/
inductive Condition : Fragment → Prop
  | since : Condition
      [.column name, .space, .comparison .greaterOrEqual, .space, .currentTimestamp, .space,
        .minus, .space, .interval, .space, .inline count]
  | between : Condition
      [.column name, .space, .comparison .greaterOrEqual, .space, .inline first, .space,
        .lowerAnd, .space, .column name, .space, .comparison .lessOrEqual, .space, .inline last]
  | predicate : Predicate fragment → Condition fragment

/-- Nothing, or conditions behind `WHERE`. -/
inductive Restriction : Fragment → Prop
  | nothing : Restriction []
  | rows : Separated [.space, .and, .space] Condition conditions →
      Restriction ([.space, .whereRows, .space] ++ conditions)

inductive Statement (schema table : String) (entries : List (String × Column)) : Fragment → Prop
  | select : Items Branches entries items → Restriction restriction →
      Statement schema table entries
        ([.select, .space] ++ items ++
          [.space, .fromTable, .space, .qualified schema table] ++ restriction)

end

/-- A case expression of SQL has a branch. -/
def SqlBranches (_ : List CaseClause) (n : Nat) : Prop :=
  1 ≤ n

def ClauseBranches (clauses : List CaseClause) (n : Nat) : Prop :=
  n = clauses.countP CaseClause.isBranch

end Grammar

end DeclarativeSql
