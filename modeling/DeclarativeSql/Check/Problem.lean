import DeclarativeSql.Json.Decode
import DeclarativeSql.Query.Operator
import DeclarativeSql.Query.Parameters

/-!
# Problems and their places

A place is a path into a document, written like `composition.columns.spend.cases[1].and`.
-/

namespace DeclarativeSql

inductive Place
  | root (name : String)
  | member (parent : Place) (name : String)
  | item (parent : Place) (index : Nat)
  /-- The name of a member, as opposed to its value. -/
  | nameOf (parent : Place)
  deriving DecidableEq

def Place.text : Place → String
  | .root name => name
  | .member parent name => parent.text ++ "." ++ name
  | .item parent index => parent.text ++ "[" ++ toString index ++ "]"
  | .nameOf parent => parent.text ++ " name"

inductive Problem
  | malformed (error : DecodeError)
  | ambiguousSource
  | empty (place : Place)
  | tooFew (place : Place) (least found : Nat)
  | tooMany (place : Place) (most found : Nat)
  | unknownOperator (place : Place) (name : String)
  | missingValue (place : Place) (operator : Operator)
  | nullValue (place : Place)
  | wrongTemplate (place : Place) (found : String)
  | tooDeep (place : Place) (limit : Nat)
  deriving DecidableEq

namespace Problem

def message : Problem → String
  | malformed error => "Malformed document: " ++ error.message
  | ambiguousSource => "Document must contain exactly one of 'query' or 'composition'"
  | empty place => place.text ++ " must not be empty"
  | tooFew place least found =>
    place.text ++ " needs at least " ++ toString least ++ " entries, found " ++ toString found
  | tooMany place most found =>
    place.text ++ " allows at most " ++ toString most ++ " entries, found " ++ toString found
  | unknownOperator place name => place.text ++ " uses unknown operator '" ++ name ++ "'"
  | missingValue place operator =>
    place.text ++ " operator '" ++ operator.name ++ "' requires a value"
  | nullValue place => place.text ++ " must not be null"
  | wrongTemplate place found =>
    place.text ++ " has template type '" ++ found ++ "', expected '" ++ RowFilter.template ++ "'"
  | tooDeep place limit => place.text ++ " nests deeper than " ++ toString limit ++ " levels"

def summary (problems : List Problem) : String :=
  "; ".intercalate (problems.map message)

end Problem

end DeclarativeSql
