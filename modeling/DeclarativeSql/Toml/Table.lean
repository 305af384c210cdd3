/-!
# TOML tables

A table comes into being in one of four ways, and how it did decides what may be added to
it. A header fills a table that earlier headers only implied. A dotted key reaches into
tables that are implied or made by dotted keys, and adds only to the latter. Inline tables
are closed. A header that goes through an array of tables goes through its last table.
-/

namespace DeclarativeSql.Toml

inductive TableKind
  | header
  /-- Only the start of longer headers so far. -/
  | implied
  | dotted
  | inline
  deriving DecidableEq

inductive Value
  | string (value : String)
  | integer (value : Int)
  /-- Only its size matters: whether it lies beyond the largest finite value. -/
  | float (isTooLarge : Bool)
  | boolean (value : Bool)
  | dateTime
  | array (items : List Value)
  | tables (items : List Value)
  | table (kind : TableKind) (entries : List (String × Value))

abbrev Table := List (String × Value)

/-- A key is a path of names, the last of which is the name in its table. -/
structure Key where
  path : List String
  name : String
  deriving DecidableEq

namespace Table

def put (name : String) (value : Value) : Table → Table
  | [] => [(name, value)]
  | entry :: rest =>
    if entry.1 = name then (name, value) :: rest else entry :: put name value rest

/-- Whether a path that makes tables of the kind `made` may go through a table. -/
def isOpenTo (made : TableKind) : TableKind → Bool
  | .inline => false
  | .header => made ≠ .dotted
  | .implied | .dotted => true

/-- Changes the table at the end of a path; tables that are missing on the way are made. -/
def changeAt? (made : TableKind) (change : TableKind → Table → Option Table) :
    List String → TableKind → Table → Option Table
  | [], kind, table => change kind table
  | name :: path, _, table =>
    match table.lookup name with
    | none => do
      return table.put name (.table made (← changeAt? made change path made []))
    | some (.table kind inner) => do
      guard (isOpenTo made kind)
      return table.put name (.table kind (← changeAt? made change path kind inner))
    | some (.tables items) =>
      match items.getLast? with
      | some (.table kind inner) => do
        let last := Value.table kind (← changeAt? made change path kind inner)
        return table.put name (.tables (items.dropLast ++ [last]))
      | _ => none
    | some _ => none

/-- Adds a value under a new name. -/
def assign? (table : Table) (key : Key) (value : Value) : Option Table :=
  let isDotted := !key.path.isEmpty
  let add (kind : TableKind) (parent : Table) : Option Table := do
    guard (decide (kind = .dotted) = isDotted && (parent.lookup key.name).isNone)
    return parent ++ [(key.name, value)]
  changeAt? .dotted add key.path .header table

def assignAll? (table : Table) (lines : List (Key × Value)) : Option Table :=
  lines.foldlM (fun table line => assign? table line.1 line.2) table

/-- The table under a header, with the lines below it. -/
def addTable? (root : Table) (key : Key) (lines : List (Key × Value)) : Option Table :=
  let fill (_ : TableKind) (parent : Table) : Option Table := do
    let start ← match parent.lookup key.name with
      | none => some []
      | some (.table .implied entries) => some entries
      | some _ => none
    return parent.put key.name (.table .header (← assignAll? start lines))
  changeAt? .implied fill key.path .header root

/-- One more table of an array of tables, with the lines below its header. -/
def appendTable? (root : Table) (key : Key) (lines : List (Key × Value)) : Option Table :=
  let append (_ : TableKind) (parent : Table) : Option Table := do
    let items ← match parent.lookup key.name with
      | none => some []
      | some (.tables items) => some items
      | some _ => none
    return parent.put key.name (.tables (items ++ [.table .header (← assignAll? [] lines)]))
  changeAt? .implied append key.path .header root

end Table

end DeclarativeSql.Toml
