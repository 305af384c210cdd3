import DeclarativeSql.Query.Column
import DeclarativeSql.Query.Parameters

/-!
# Compositions

A composition names a table, the columns to select from it and the parameters that hold
unless a request overrides them.
-/

namespace DeclarativeSql

inductive QueryKind
  | cube
  deriving DecidableEq

def QueryKind.name : QueryKind → String
  | .cube => "cube"

/-- The stamp of a composition that belongs to no company. -/
structure CompositionMetadata where
  templateType : String
  queryKind : QueryKind
  identifier : String
  version : Nat := 0
  deriving DecidableEq

def CompositionMetadata.global (identifier : String) (queryKind : QueryKind) :
    CompositionMetadata :=
  ⟨"query", queryKind, identifier, 0⟩

structure Composition where
  table : String := ""
  columns : Columns := .empty
  queryKind : QueryKind := .cube
  parameters : Parameters := {}
  /-- The schema for requests that name none. -/
  schema : Option String := none
  metadata : Option CompositionMetadata := none
  deriving DecidableEq

namespace Composition

def withColumn (composition : Composition) (name : String) (column : Column) : Composition :=
  { composition with columns := composition.columns.insert name column }

def withInterval (composition : Composition) (interval : Interval) : Composition :=
  { composition with parameters := { composition.parameters with interval := some interval } }

def withRowFilter (composition : Composition) (filter : RowFilter) : Composition :=
  { composition with
    parameters :=
      { composition.parameters with
        rowFilters := composition.parameters.rowFilters ++ [filter] } }

def withSchema (composition : Composition) (schema : String) : Composition :=
  { composition with schema := some schema }

end Composition

end DeclarativeSql
