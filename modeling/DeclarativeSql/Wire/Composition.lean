import DeclarativeSql.Query.Composition
import DeclarativeSql.Wire.Column
import DeclarativeSql.Wire.Interval
import DeclarativeSql.Wire.RowFilter

/-!
# The written form of compositions

Parameters always write both of their members. Overrides write only what they change, so
that an absent interval stays apart from `null`.
-/

namespace DeclarativeSql

/-- A member that is written only when it has a value. -/
def memberIfSome (name : String) (toJson : α → Json) (value : Option α) : List (String × Json) :=
  (value.map fun value => (name, toJson value)).toList

def QueryKind.ofNode (node : Node) : Decoded QueryKind := do
  let _ ← node.asVariant [QueryKind.cube.name]
  return .cube

namespace CompositionMetadata

def fields : Fields [String, QueryKind, String, Nat] :=
  .cons (required "templateType" Node.asString) <|
  .cons (required "queryType" QueryKind.ofNode) <|
  .cons (required "identifier" Node.asString) <|
  .cons (optional "version" Node.asNatural 0) .nil

def ofNode (node : Node) : Decoded CompositionMetadata := do
  let (templateType, queryKind, identifier, version, ()) ← fields.decode false node
  return ⟨templateType, queryKind, identifier, version⟩

def toJson (metadata : CompositionMetadata) : Json :=
  .object
    [("templateType", .string metadata.templateType),
     ("queryType", .string metadata.queryKind.name),
     ("identifier", .string metadata.identifier),
     ("version", .number (.int metadata.version))]

end CompositionMetadata

def RowFilter.listToJson (filters : List RowFilter) : Json :=
  .array (filters.map RowFilter.toJson)

def Interval.optionToJson (interval : Option Interval) : Json :=
  interval.elim .null Interval.toJson

namespace Parameters

def fields : Fields [Option Interval, List RowFilter] :=
  .cons (optional "interval" (Node.asOption Interval.ofNode) none) <|
  .cons (optional "rowFilters" (Node.asList RowFilter.ofNode) []) .nil

def ofNode (node : Node) : Decoded Parameters := do
  let (interval, rowFilters, ()) ← fields.decode false node
  return ⟨interval, rowFilters⟩

def toJson (parameters : Parameters) : Json :=
  .object
    [("interval", Interval.optionToJson parameters.interval),
     ("rowFilters", RowFilter.listToJson parameters.rowFilters)]

end Parameters

namespace Overrides

/-- An interval that is present counts, `null` too. -/
def intervalOfNode (node : Node) : Decoded (Option (Option Interval)) :=
  (node.asOption Interval.ofNode).map some

def fields : Fields [Option (Option Interval), Option (List RowFilter)] :=
  .cons (optional "interval" intervalOfNode none) <|
  .cons (optional "rowFilters" (Node.asOption (Node.asList RowFilter.ofNode)) none) .nil

def ofNode (node : Node) : Decoded Overrides := do
  let (interval, rowFilters, ()) ← fields.decode false node
  return ⟨interval, rowFilters⟩

def toJson (overrides : Overrides) : Json :=
  .object <|
    memberIfSome "interval" Interval.optionToJson overrides.interval ++
      memberIfSome "rowFilters" RowFilter.listToJson overrides.rowFilters

end Overrides

namespace Composition

def fields : Fields [String, Columns, QueryKind, Parameters, Option String,
    Option CompositionMetadata] :=
  .cons (optional "table" Node.asString "") <|
  .cons (optional "columns" Columns.ofNode .empty) <|
  .cons (optional "queryType" QueryKind.ofNode .cube) <|
  .cons (optional "parameters" Parameters.ofNode {}) <|
  .cons (optional "schema" (Node.asOption Node.asString) none) <|
  .cons (optional "metadata" (Node.asOption CompositionMetadata.ofNode) none) .nil

def ofNode (node : Node) : Decoded Composition := do
  let (table, columns, queryKind, parameters, schema, metadata, ()) ← fields.decode false node
  return ⟨table, columns, queryKind, parameters, schema, metadata⟩

def toJson (composition : Composition) : Json :=
  .object <|
    [("table", .string composition.table), ("columns", composition.columns.toJson),
     ("queryType", .string composition.queryKind.name),
     ("parameters", composition.parameters.toJson)] ++
      memberIfSome "schema" .string composition.schema ++
      memberIfSome "metadata" CompositionMetadata.toJson composition.metadata

end Composition

end DeclarativeSql
