/-!
# Operators

The comparisons that a condition may use. A condition keeps the name of its operator as
written; `Operator.ofName?` says whether the name is known.
-/

namespace DeclarativeSql

inductive Operator
  | isNull
  | isNotNull
  | equal
  | notEqual
  | lessThan
  | lessThanOrEqual
  | greaterThan
  | greaterThanOrEqual
  | contains
  | startsWith
  | endsWith
  deriving DecidableEq

namespace Operator

def all : List Operator :=
  [isNull, isNotNull, equal, notEqual, lessThan, lessThanOrEqual, greaterThan,
   greaterThanOrEqual, contains, startsWith, endsWith]

def name : Operator → String
  | isNull => "is_null"
  | isNotNull => "is_not_null"
  | equal => "equal"
  | notEqual => "not_equal"
  | lessThan => "less_than"
  | lessThanOrEqual => "less_than_or_equal"
  | greaterThan => "greater_than"
  | greaterThanOrEqual => "greater_than_or_equal"
  | contains => "contains"
  | startsWith => "starts_with"
  | endsWith => "ends_with"

def ofName? (name : String) : Option Operator :=
  all.find? fun operator => operator.name = name

/-- The tests for null have no right-hand side. -/
def takesValue : Operator → Bool
  | isNull | isNotNull => false
  | _ => true

/-- Whether the operator compares with a pattern that has wildcards. -/
def isPattern : Operator → Bool
  | contains | startsWith | endsWith => true
  | _ => false

theorem ofName?_name (operator : Operator) : ofName? operator.name = some operator := by
  cases operator <;> decide

theorem name_of_ofName? {name : String} {operator : Operator}
    (found : ofName? name = some operator) : operator.name = name := by
  simpa using List.find?_some found

end Operator

end DeclarativeSql
