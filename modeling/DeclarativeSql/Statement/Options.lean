import DeclarativeSql.Calendar.Zone
import DeclarativeSql.Query.Operator
import DeclarativeSql.Sql.Dialect

/-!
# Options and faults of a statement

A fault of a statement is an answer. A run that panics ends without any answer.
-/

namespace DeclarativeSql

structure StatementOptions where
  dialect : Dialect := .postgres
  /-- The column that an interval restricts. -/
  dateColumn : String := "daily_cohort"
  /-- The zone in which the bounds of a range are dates. -/
  zone : Zone := .local
  /-- How high a predicate may be. -/
  maxDepth : Nat := 64
  deriving DecidableEq

inductive CompileError
  | unknownOperator (name : String)
  | missingValue (operator : Operator)
  | tooDeep (limit : Nat)
  deriving DecidableEq

def CompileError.message : CompileError → String
  | .unknownOperator name => "Unknown operator: " ++ name
  | .missingValue operator => "Operator '" ++ operator.name ++ "' requires a value"
  | .tooDeep limit => "Expression nesting exceeds " ++ toString limit ++ " levels"

abbrev Compiled := Except CompileError

/-- How a run ends that does not succeed. -/
inductive Failure (ε : Type) where
  | returned (error : ε)
  | panicked
  deriving DecidableEq

def Failure.map (f : ε → δ) : Failure ε → Failure δ
  | .returned error => .returned (f error)
  | .panicked => .panicked

/-- A step that cannot panic, among steps that can. -/
def returning (error : ε → δ) (result : Except ε α) : Except (Failure δ) α :=
  result.mapError fun fault => .returned (error fault)

end DeclarativeSql
