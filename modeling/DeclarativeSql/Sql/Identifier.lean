import DeclarativeSql.Text.Basic

/-!
# Identifiers

A plain identifier may stand in a statement as it is; any other stands between double
quotes, with each of its own double quotes written twice. A name with dots is a qualified
name: its parts are quoted one by one, unless a part is empty or holds a quote.
-/

namespace DeclarativeSql.Sql

def isAsciiLetter (c : Char) : Bool :=
  ('a' ≤ c && c ≤ 'z') || ('A' ≤ c && c ≤ 'Z')

def isPlainStart (c : Char) : Bool :=
  isAsciiLetter c || c = '_'

def isPlainRest (c : Char) : Bool :=
  isPlainStart c || c.isDigit || c = '$'

def isPlain : List Char → Bool
  | [] => false
  | c :: rest => isPlainStart c && rest.all isPlainRest

/-- Every `mark` is written twice. -/
def double (mark : Char) (s : List Char) : List Char :=
  s.flatMap fun c => if c = mark then [c, c] else [c]

/-- Puts a text between marks. -/
def enclose (mark : Char) (s : List Char) : List Char :=
  mark :: s ++ [mark]

def quoteDouble (name : List Char) : List Char :=
  enclose '"' (double '"' name)

def quotePart (part : List Char) : List Char :=
  if isPlain part then part else quoteDouble part

def quoteIfNeeded (name : List Char) : List Char :=
  let parts := Text.split '.' name
  if parts.all isPlain then name
  else if name.contains '"' || parts.any List.isEmpty then quoteDouble name
  else Text.join '.' (parts.map quotePart)

def isPlainIdentifier (name : String) : Bool :=
  isPlain name.toList

def quotedIdentifier (name : String) : String :=
  String.ofList (quoteDouble name.toList)

end DeclarativeSql.Sql
