import DeclarativeSql.Json.Number
import DeclarativeSql.Query.Operator

/-!
# Conditions

A condition compares a column with a value.
-/

namespace DeclarativeSql

inductive Value
  | null
  | number (value : Number)
  | text (value : String)
  deriving DecidableEq

def Value.isNull : Value → Bool
  | .null => true
  | _ => false

structure ConditionOptions where
  caseSensitive : Bool := false
  deriving DecidableEq

/-- The operator stands by its name: an unknown one is a fault of the condition, not of the
document that holds it. -/
structure Condition where
  column : String
  operator : String
  value : Value := .null
  options : Option ConditionOptions := none
  deriving DecidableEq

namespace Condition

def isCaseSensitive (condition : Condition) : Bool :=
  condition.options.any ConditionOptions.caseSensitive

def caseSensitive (condition : Condition) : Condition :=
  { condition with options := some ⟨true⟩ }

end Condition

end DeclarativeSql
