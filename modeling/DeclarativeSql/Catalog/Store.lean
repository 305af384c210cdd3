import Std.Data.HashMap
import DeclarativeSql.Catalog.Path
import DeclarativeSql.Wire.Document

/-!
# The store

Queries under their paths, in no order. Creating fails on a path that is taken, replacing and
deleting on one that is not, and a step that fails changes nothing. Listings are collected and then
sorted by path. All paths with a start are deleted by collecting them first and removing them one
after another.
-/

namespace DeclarativeSql

structure StoredQuery where
  path : String
  query : Query
  deriving DecidableEq

namespace StoredQuery

def fields : Fields [String, Query] :=
  .cons (required "path" Node.asString) <|
  .cons (required "query" Query.ofNode) .nil

def ofNode (node : Node) : Decoded StoredQuery := do
  let (path, query, ()) ← fields.decode false node
  return ⟨path, query⟩

def toJson (stored : StoredQuery) : Json :=
  .object [("path", .string stored.path), ("query", stored.query.toJson)]

end StoredQuery

inductive StoreError
  | duplicatePath (path : String)
  | notFound (path : String)
  deriving DecidableEq

def StoreError.message : StoreError → String
  | .duplicatePath path => "Query already exists at path: " ++ path
  | .notFound path => "Query not found at path: " ++ path

structure Store where
  queries : Std.HashMap String Query

namespace Store

/-- The outcome of a step that changes the store. -/
abbrev Change := Except StoreError (StoredQuery × Store)

def empty : Store :=
  ⟨∅⟩

def size (store : Store) : Nat :=
  store.queries.size

def isEmpty (store : Store) : Bool :=
  store.queries.isEmpty

/-- The paths in no particular order. -/
def paths (store : Store) : List String :=
  store.queries.keys

def get? (store : Store) (path : String) : Option StoredQuery :=
  store.queries[path]?.map fun query => ⟨path, query⟩

def create (store : Store) (path : String) (query : Query) : Change :=
  match store.queries[path]? with
  | some _ => .error (.duplicatePath path)
  | none => .ok (⟨path, query⟩, ⟨store.queries.insert path query⟩)

def replace (store : Store) (path : String) (query : Query) : Change :=
  match store.queries[path]? with
  | some _ => .ok (⟨path, query⟩, ⟨store.queries.insert path query⟩)
  | none => .error (.notFound path)

/-- Takes out what is at a path, if anything is. -/
def remove (store : Store) (path : String) : Option Query × Store :=
  (store.queries[path]?, ⟨store.queries.erase path⟩)

def delete (store : Store) (path : String) : Change :=
  match store.remove path with
  | (some query, rest) => .ok (⟨path, query⟩, rest)
  | (none, _) => .error (.notFound path)

def startsWith (start path : String) : Bool :=
  start.toList.isPrefixOf path.toList

/-- The queries whose paths have a start, in no particular order. -/
def collectStart (store : Store) (start : String) : List StoredQuery :=
  (store.queries.toList.filter fun entry => startsWith start entry.1).map fun entry =>
    ⟨entry.1, entry.2⟩

def listStart (store : Store) (start : String) : List StoredQuery :=
  (store.collectStart start).mergeSort fun first second => first.path ≤ second.path

/-- Removes paths one after another, and counts those at which something was. -/
def removeAll (store : Store) : List String → Nat × Store
  | [] => (0, store)
  | path :: rest =>
    let (removed, next) := store.remove path
    let (count, last) := next.removeAll rest
    (if removed.isSome then count + 1 else count, last)

/-- Deletes every path with this start, and counts them. -/
def deleteStart (store : Store) (start : String) : Nat × Store :=
  store.removeAll ((store.collectStart start).map StoredQuery.path)

-- ---------------------------------------------------------------------------
-- Global queries and queries of companies
-- ---------------------------------------------------------------------------

/-- A global composition is stamped with its identifier. -/
def stampGlobal (identifier : String) (query : Query) : Query :=
  query.mapComposition fun composition =>
    { composition with
      metadata := some (.global identifier composition.queryKind) }

def createGlobal (store : Store) (identifier : String) (query : Query) : Change :=
  store.create (Path.global identifier) (stampGlobal identifier query)

def createCompany (store : Store) (company identifier : String) (query : Query) : Change :=
  store.create (Path.company company identifier) query

def listGlobals (store : Store) : List StoredQuery :=
  store.listStart Path.globalStart

def listByCompany (store : Store) (company : String) : List StoredQuery :=
  store.listStart (Path.companyStart company)

def deleteAllByCompany (store : Store) (company : String) : Nat × Store :=
  store.deleteStart (Path.companyStart company)

end Store

end DeclarativeSql
