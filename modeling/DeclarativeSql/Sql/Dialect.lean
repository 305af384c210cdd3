import DeclarativeSql.Sql.Identifier

/-!
# Dialects

Dialects differ in how they write names and string literals. The legacy dialect writes both
as authored and is meant for trusted compositions or bound statements; the others quote
identifiers that are not plain and write a single quote inside a literal twice.
-/

namespace DeclarativeSql

inductive Dialect
  | legacy
  | postgres
  | redshift
  deriving DecidableEq

namespace Dialect

def all : List Dialect := [legacy, postgres, redshift]

def name : Dialect → String
  | legacy => "legacy"
  | postgres => "postgres"
  | redshift => "redshift"

def ofName? (name : String) : Option Dialect :=
  all.find? fun dialect => dialect.name = name

structure UnknownName where
  name : String
  deriving DecidableEq

def UnknownName.message (error : UnknownName) : String :=
  "unknown dialect '" ++ error.name ++ "'"

/-- Reads a name in any ASCII case; Postgres has two. -/
def ofText (text : String) : Except UnknownName Dialect :=
  let name := String.ofList (text.toList.map Text.lowerAscii)
  if name = "postgresql" then .ok .postgres
  else
    match ofName? name with
    | some dialect => .ok dialect
    | none => .error ⟨name⟩

def quoteIdentifier (dialect : Dialect) (name : String) : String :=
  match dialect with
  | legacy => name
  | postgres | redshift => String.ofList (Sql.quoteIfNeeded name.toList)

def quoteString (dialect : Dialect) (value : String) : String :=
  match dialect with
  | legacy => String.ofList (Sql.enclose '\'' value.toList)
  | postgres | redshift => String.ofList (Sql.enclose '\'' (Sql.double '\'' value.toList))

def nullText (_ : Dialect) : String := "NULL"

/-- Stands for a bound parameter; parameters are counted from 1. -/
def placeholder (_ : Dialect) (position : Nat) : String :=
  "$" ++ toString position

end Dialect

end DeclarativeSql
