import DeclarativeSql.Calendar.Timestamp
import DeclarativeSql.Query.Predicate

/-!
# Parameters of a query

An interval says which days a query looks at: the last days up to now, or the calendar days from
one timestamp to another, both included.

A row filter is a predicate with an identifier. Filters of a request stand before the
filters that a query has by default, and replace those with the same identifier.
-/

namespace DeclarativeSql

structure DateRange where
  first : Timestamp
  last : Timestamp
  deriving DecidableEq

inductive Interval
  | days (count : Number)
  | range (bounds : DateRange)
  deriving DecidableEq

/-- The items of `primary` in their order, then those of `secondary` whose key does not occur
in `primary`, in theirs. -/
def mergeBy [DecidableEq κ] (key : α → κ) (primary secondary : List α) : List α :=
  primary ++ secondary.filter fun item => key item ∉ primary.map key

structure FilterMetadata where
  templateType : String
  identifier : String
  version : Option Nat := none
  deriving DecidableEq

structure RowFilter where
  metadata : FilterMetadata
  predicate : Predicate
  deriving DecidableEq

namespace RowFilter

/-- The template type that every row filter should carry. -/
def template : String := "row_filter"

def identifier (filter : RowFilter) : String :=
  filter.metadata.identifier

def named (identifier : String) (predicate : Predicate) : RowFilter :=
  ⟨⟨template, identifier, none⟩, predicate⟩

def merge (primary secondary : List RowFilter) : List RowFilter :=
  mergeBy identifier primary secondary

end RowFilter

structure Parameters where
  interval : Option Interval := none
  rowFilters : List RowFilter := []
  deriving DecidableEq

/-- What a request changes. Without an interval of its own a request keeps the default; with
`some none` it asks for none at all. -/
structure Overrides where
  interval : Option (Option Interval) := none
  rowFilters : Option (List RowFilter) := none
  deriving DecidableEq

/-- The parameters in force under a request. -/
def Overrides.apply (overrides : Overrides) (defaults : Parameters) : Parameters where
  interval := overrides.interval.getD defaults.interval
  rowFilters := RowFilter.merge (overrides.rowFilters.getD []) defaults.rowFilters

end DeclarativeSql
