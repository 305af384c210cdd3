import DeclarativeSql.Json.Record
import DeclarativeSql.Query.Parameters

/-!
# The written form of intervals

An interval has a `unit` and a `value` of a form that depends on it. A value that stands
before its unit is read in full first; members with other names are skipped. An array of the
unit and the value is read as well; there the unit has to be a string.
-/

namespace DeclarativeSql

def Timestamp.ofNode (node : Node) : Decoded Timestamp := do
  match Timestamp.ofText? (← node.asString) with
  | some time => return time
  | none => throw .malformed

namespace DateRange

def fields : Fields [Timestamp, Timestamp] :=
  .cons (required "start" Timestamp.ofNode) <|
  .cons (required "end" Timestamp.ofNode) .nil

def ofNode (node : Node) : Decoded DateRange := do
  let (first, last, ()) ← fields.decode false node
  return ⟨first, last⟩

def toJson (range : DateRange) : Json :=
  .object [("start", .string range.first.text), ("end", .string range.last.text)]

end DateRange

namespace Interval

def units : List String := ["day", "range"]

def ofUnit (unit : String) (value : Node) : Decoded Interval :=
  if unit = "day" then value.asNumber.map .days
  else (DateRange.ofNode value).map .range

/-- What is known of an interval between two of its members. -/
inductive Progress
  | nothing
  | unit (name : String)
  | value (value : Node)
  | done (interval : Interval)

def takeMember (progress : Progress) (name : String) (node : Node) : Decoded Progress :=
  if name = "unit" then
    match progress with
    | .nothing => return .unit (← node.asVariant units)
    | .value value => return .done (← ofUnit (← node.asVariant units) value)
    | .unit _ | .done _ => throw (.duplicateField "unit")
  else if name = "value" then
    match progress with
    | .nothing => do
      node.inFull
      return .value node
    | .unit unit => return .done (← ofUnit unit node)
    | .value _ | .done _ => throw (.duplicateField "value")
  else do
    node.skip
    return progress

def takeMembers : Progress → List Member → Decoded Progress
  | progress, [] => .ok progress
  | _, (none, _) :: _ => .error .malformed
  | progress, (some name, node) :: rest => do takeMembers (← takeMember progress name node) rest

/-- The items that follow the unit: the value, and nothing after it. -/
def takeItems (unit : String) : List Node → Decoded Interval
  | [] => throw .malformed
  | value :: rest => do
    let interval ← ofUnit unit value
    if rest.isEmpty then return interval else throw .malformed

def ofNode : Node → Decoded Interval
  | .object members => do
    match ← takeMembers .nothing members with
    | .done interval => return interval
    | .unit _ => throw (.missingField "value")
    | .nothing | .value _ => throw (.missingField "unit")
  | .array (unit :: rest) => do takeItems (← unit.asNameIn units) rest
  | _ => .error .malformed

def toJson : Interval → Json
  | .days count => .object [("unit", .string "day"), ("value", .number count)]
  | .range bounds => .object [("unit", .string "range"), ("value", bounds.toJson)]

end Interval

end DeclarativeSql
