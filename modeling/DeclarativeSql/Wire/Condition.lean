import DeclarativeSql.Json.Record
import DeclarativeSql.Query.Condition

/-!
# The written form of conditions

The value of a condition is always written; its options only when there are any.
-/

namespace DeclarativeSql

namespace Value

def ofNode (node : Node) : Decoded Value := do
  node.inFull
  match node with
  | .null => return .null
  | .number value => return .number value
  | .string value => return .text value
  | _ => throw (.noAlternative "Value")

def toJson : Value → Json
  | .null => .null
  | .number value => .number value
  | .text value => .string value

end Value

namespace ConditionOptions

def fields : Fields [Bool] :=
  .cons (optional "caseSensitive" Node.asBool false) .nil

def ofNode (node : Node) : Decoded ConditionOptions := do
  let (caseSensitive, ()) ← fields.decode false node
  return ⟨caseSensitive⟩

def toJson (options : ConditionOptions) : Json :=
  .object [("caseSensitive", .bool options.caseSensitive)]

end ConditionOptions

namespace Condition

def fields : Fields [String, String, Value, Option ConditionOptions] :=
  .cons (required "column" Node.asString) <|
  .cons (required "operator" Node.asString) <|
  .cons (optional "value" Value.ofNode .null) <|
  .cons (optional "options" (Node.asOption ConditionOptions.ofNode) none) .nil

def ofNode (node : Node) : Decoded Condition := do
  let (column, operator, value, options, ()) ← fields.decode false node
  return ⟨column, operator, value, options⟩

/-- The members of a condition, which may stand beside others. -/
def members (condition : Condition) : List (String × Json) :=
  [("column", .string condition.column), ("operator", .string condition.operator),
   ("value", condition.value.toJson)] ++
    (condition.options.map fun options => ("options", options.toJson)).toList

def toJson (condition : Condition) : Json :=
  .object condition.members

end Condition

end DeclarativeSql
