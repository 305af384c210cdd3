import DeclarativeSql.Json.Basic
import DeclarativeSql.Sql.Token

/-!
# Fragments

A fragment of a statement is a list of tokens. Its text has every literal in place; when it
is bound, the string literals that came from outside become numbered parameters.
-/

namespace DeclarativeSql

structure BoundSql where
  sql : String
  parameters : List String
  deriving DecidableEq

def BoundSql.toJson (bound : BoundSql) : Json :=
  .object [("sql", .string bound.sql), ("params", .array (bound.parameters.map .string))]

abbrev Fragment := List Token

namespace Fragment

def text (dialect : Dialect) (fragment : Fragment) : String :=
  String.join (fragment.map (Token.text dialect))

@[simp] theorem text_nil (dialect : Dialect) : text dialect [] = "" := rfl

@[simp] theorem text_cons (dialect : Dialect) (token : Token) (rest : Fragment) :
    text dialect (token :: rest) = token.text dialect ++ rest.text dialect := by
  simp [text]

@[simp] theorem text_append (dialect : Dialect) (first second : Fragment) :
    text dialect (first ++ second) = first.text dialect ++ second.text dialect := by
  simp [text]

/-- Binds the literals of a fragment that stands behind `count` parameters. -/
def bindAfter (dialect : Dialect) (count : Nat) : Fragment → BoundSql
  | [] => ⟨"", []⟩
  | .string value :: rest =>
    let bound := bindAfter dialect (count + 1) rest
    ⟨dialect.placeholder (count + 1) ++ bound.sql, value :: bound.parameters⟩
  | token :: rest =>
    let bound := bindAfter dialect count rest
    ⟨token.text dialect ++ bound.sql, bound.parameters⟩

def bind (dialect : Dialect) (fragment : Fragment) : BoundSql :=
  bindAfter dialect 0 fragment

/-- The fragments in a row, with `separator` between them. -/
def joined (separator : Fragment) : List Fragment → Fragment
  | [] => []
  | [fragment] => fragment
  | fragment :: rest => fragment ++ separator ++ joined separator rest

def enclosed (fragment : Fragment) : Fragment :=
  .openParen :: fragment ++ [.closeParen]

end Fragment

end DeclarativeSql
