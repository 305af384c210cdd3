import DeclarativeSql.Query.Predicate

/-!
# Output columns

A column is a piece of SQL or a list of clauses that choose an outcome. The columns of a
composition are kept in the order in which their names first appear, and no name appears
twice.
-/

namespace DeclarativeSql

/-- What a clause yields: a literal or a column. -/
inductive Outcome
  | value (value : Value)
  | column (name : String)
  deriving DecidableEq

inductive CaseClause
  | branch (condition : Predicate) (outcome : Outcome)
  /-- Taken when no branch applies; of several the last one counts. -/
  | otherwise (outcome : Outcome)
  deriving DecidableEq

inductive Column
  | raw (sql : String)
  | cased (clauses : List CaseClause)
  deriving DecidableEq

structure Columns where
  entries : List (String × Column)
  distinct : (entries.map Prod.fst).Nodup
  deriving DecidableEq

namespace Columns

def empty : Columns :=
  ⟨[], List.nodup_nil⟩

instance : Inhabited Columns := ⟨empty⟩

def names (columns : Columns) : List String :=
  columns.entries.map Prod.fst

def isEmpty (columns : Columns) : Bool :=
  columns.entries.isEmpty

def size (columns : Columns) : Nat :=
  columns.entries.length

/-- A known name keeps its place and takes the new column; an unknown one goes to the end. -/
def put (name : String) (column : Column) : List (String × Column) → List (String × Column)
  | [] => [(name, column)]
  | entry :: rest =>
    if entry.1 = name then (name, column) :: rest else entry :: put name column rest

theorem names_put (name : String) (column : Column) (entries : List (String × Column)) :
    (put name column entries).map Prod.fst =
      if name ∈ entries.map Prod.fst then entries.map Prod.fst
      else entries.map Prod.fst ++ [name] := by
  induction entries with
  | nil => simp [put]
  | cons entry rest ih =>
    by_cases same : entry.1 = name
    · simp [put, same]
    · have other : name ≠ entry.1 := fun h => same h.symm
      simp only [put, same, if_false, List.map_cons, ih, List.mem_cons, other, false_or]
      split <;> simp

theorem nodup_put (name : String) (column : Column) {entries : List (String × Column)}
    (distinct : (entries.map Prod.fst).Nodup) :
    ((put name column entries).map Prod.fst).Nodup := by
  rw [names_put]
  split
  · exact distinct
  · next absent =>
    rw [List.nodup_append]
    refine ⟨distinct, by simp, ?_⟩
    intro known member other single same
    rw [List.mem_singleton] at single
    exact absent (single ▸ same ▸ member)

def insert (columns : Columns) (name : String) (column : Column) : Columns :=
  ⟨put name column columns.entries, nodup_put name column columns.distinct⟩

def ofEntries (entries : List (String × Column)) : Columns :=
  entries.foldl (fun columns entry => columns.insert entry.1 entry.2) empty

end Columns

end DeclarativeSql
