import DeclarativeSql.Text.Basic

/-!
# Paths of stored queries

A path is a list of components with `_` between them. Inside a component `-` is written
`-2D` and `_` is written `-5F`, so that no written component holds the separator.
-/

namespace DeclarativeSql.Path

def separator : Char := '_'

def escapeChar (c : Char) : List Char :=
  if c = '-' then ['-', '2', 'D']
  else if c = separator then ['-', '5', 'F']
  else [c]

def escape (component : List Char) : List Char :=
  component.flatMap escapeChar

/-- A `-` that begins no escape stands for itself. -/
def unescape : List Char → List Char
  | [] => []
  | '-' :: '2' :: 'D' :: rest => '-' :: unescape rest
  | '-' :: '5' :: 'F' :: rest => separator :: unescape rest
  | c :: rest => c :: unescape rest

def ofComponents (components : List String) : String :=
  String.ofList (Text.join separator (components.map fun component => escape component.toList))

def components (path : String) : List String :=
  (Text.split separator path.toList).map fun piece => String.ofList (unescape piece)

/-- What the path of every global query begins with. -/
def globalStart : String := "global_"

def global (identifier : String) : String :=
  ofComponents ["global", "queries", identifier]

def company (company identifier : String) : String :=
  ofComponents ["companies", company, "queries", identifier]

/-- What the path of every query of a company begins with. -/
def companyStart (company : String) : String :=
  (ofComponents ["companies", company]).push separator

end DeclarativeSql.Path
