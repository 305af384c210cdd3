import DeclarativeSql.Query.Composition

/-!
# Documents and queries

A document is a query as stored: the members may be absent or contradict each other. A
query has exactly one source.
-/

namespace DeclarativeSql

structure Document where
  query : Option String := none
  composition : Option Composition := none
  description : Option String := none
  deriving DecidableEq

inductive Source
  /-- SQL that is used as it stands. -/
  | raw (sql : String)
  | composition (composition : Composition)
  deriving DecidableEq

structure Query where
  source : Source
  description : Option String := none
  deriving DecidableEq

namespace Query

def raw (sql : String) : Query :=
  ⟨.raw sql, none⟩

def composed (composition : Composition) : Query :=
  ⟨.composition composition, none⟩

def composition? (query : Query) : Option Composition :=
  match query.source with
  | .raw _ => none
  | .composition composition => some composition

def isComposition (query : Query) : Bool :=
  query.composition?.isSome

/-- Changes the composition of a query that has one. -/
def mapComposition (change : Composition → Composition) (query : Query) : Query :=
  match query.source with
  | .raw _ => query
  | .composition composition => { query with source := .composition (change composition) }

def document (query : Query) : Document :=
  match query.source with
  | .raw sql => { query := some sql, description := query.description }
  | .composition composition =>
    { composition := some composition, description := query.description }

end Query

namespace Document

def source? (document : Document) : Option Source :=
  match document.query, document.composition with
  | some sql, none => some (.raw sql)
  | none, some composition => some (.composition composition)
  | _, _ => none

end Document

end DeclarativeSql
