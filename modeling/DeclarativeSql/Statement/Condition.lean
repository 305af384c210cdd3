import DeclarativeSql.Query.Condition
import DeclarativeSql.Sql.Fragment
import DeclarativeSql.Statement.Options

/-!
# Conditions in a statement

A condition becomes `column test`, `column symbol literal` or `column like pattern`. The text
of a value goes into a pattern as it is.
-/

namespace DeclarativeSql

/-- Numbers stay in the statement, texts may be bound. -/
def Value.literal : Value → Token
  | .null => .null
  | .number value => .number value
  | .text value => .string value

def Value.plainText : Value → String
  | .null => ""
  | .number value => value.numeral
  | .text value => value

namespace Operator

def comparison? : Operator → Option Comparison
  | equal => some .equal
  | notEqual => some .notEqual
  | lessThan => some .less
  | lessThanOrEqual => some .lessOrEqual
  | greaterThan => some .greater
  | greaterThanOrEqual => some .greaterOrEqual
  | _ => none

/-- The texts that contain, start with or end with what `text` matches as a pattern. -/
def pattern (operator : Operator) (text : String) : String :=
  match operator with
  | startsWith => text ++ "%"
  | endsWith => "%" ++ text
  | _ => "%" ++ text ++ "%"

/-- The token after the column of a test for null. -/
def nullTest : Operator → Token
  | isNull => .isNull
  | _ => .isNotNull

def patternTest (caseSensitive : Bool) : Token :=
  if caseSensitive then .like else .ilike

/-- What follows the column and a space. -/
def comparand (operator : Operator) (value : Value) (caseSensitive : Bool) : Fragment :=
  match operator.comparison? with
  | some symbol => [.comparison symbol, .space, value.literal]
  | none => [patternTest caseSensitive, .space, .string (operator.pattern value.plainText)]

def compile (operator : Operator) (column : String) (value : Value) (caseSensitive : Bool) :
    Compiled Fragment :=
  if !operator.takesValue then .ok [.column column, .space, operator.nullTest]
  else if value.isNull then .error (.missingValue operator)
  else .ok (.column column :: .space :: operator.comparand value caseSensitive)

end Operator

def Condition.compile (condition : Condition) : Compiled Fragment :=
  match Operator.ofName? condition.operator with
  | none => .error (.unknownOperator condition.operator)
  | some operator => operator.compile condition.column condition.value condition.isCaseSensitive

end DeclarativeSql
