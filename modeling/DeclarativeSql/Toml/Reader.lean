import DeclarativeSql.Toml.Quoted
import DeclarativeSql.Toml.Scalar

/-!
# Reading TOML

A text is a sequence of assignments and headers, one a line. `Toml.read?` takes it to its
root table. Arrays and inline tables may run over several lines, may end in a comma, and may
be nested `maxNesting` levels deep. A key stands on one line, also in an inline table, but
line breaks may surround the equals sign behind it there.
-/

namespace DeclarativeSql.Toml

def maxNesting : Nat := 80

/-- How many names a key may have. -/
def maxNames : Nat := 80

/-- Passes over white space, line breaks and comments. -/
def skipFiller? : (inComment : Bool) → List Char → Option (List Char)
  | _, [] => some []
  | _, '\n' :: rest => skipFiller? false rest
  | _, '\r' :: '\n' :: rest => skipFiller? false rest
  | true, c :: rest => if isTextChar c then skipFiller? true rest else none
  | false, '#' :: rest => skipFiller? true rest
  | false, c :: rest => if isBlank c then skipFiller? false rest else some (c :: rest)

-- ---------------------------------------------------------------------------
-- Keys
-- ---------------------------------------------------------------------------

def isBareChar (c : Char) : Bool :=
  c.isAlphanum || c = '_' || c = '-'

def readName? (s : List Char) : Option (String × List Char) :=
  match s.takeWhile isBareChar with
  | [] => readLineString? s
  | name => some (String.ofList name, s.drop name.length)

/-- Names with dots between them, and blanks around the dots. -/
def readNames? (fuel : Nat) (s : List Char) : Option (List String × List Char) :=
  match fuel with
  | 0 => none
  | fuel + 1 => do
    let (name, rest) ← readName? (dropBlanks s)
    match dropBlanks rest with
    | '.' :: rest => do
      let (names, rest) ← readNames? fuel rest
      return (name :: names, rest)
    | rest => return ([name], rest)

def readKey? (s : List Char) : Option (Key × List Char) := do
  let (names, rest) ← readNames? (s.length + 1) s
  guard (names.length ≤ maxNames)
  return (⟨names.dropLast, ← names.getLast?⟩, rest)

-- ---------------------------------------------------------------------------
-- Values
-- ---------------------------------------------------------------------------

def isScalarChar (c : Char) : Bool :=
  !isBlank c && c ∉ ['\n', '\r', ',', '[', ']', '\x7b', '\x7d', '#', '=', '"', '\'']

/-- A date and a time may have a space between them. -/
def scalarText (s : List Char) : List Char × List Char :=
  let (text, rest) := s.span isScalarChar
  match rest with
  | ' ' :: c :: more =>
    if isDate text && c.isDigit then
      let (time, rest) := (c :: more).span isScalarChar
      (text ++ ' ' :: time, rest)
    else (text, rest)
  | rest => (text, rest)

def readScalar? (s : List Char) : Option (Value × List Char) := do
  let (text, rest) := scalarText s
  return (← scalar? text, rest)

mutual
/-- The value at the front of the text, with `room` for containers, and the rest. -/
def readValue? (fuel room : Nat) (s : List Char) : Option (Value × List Char) :=
  match fuel, s with
  | fuel + 1, '[' :: rest => do
    guard (0 < room)
    let (items, rest) ← readItems? fuel (room - 1) (← skipFiller? false rest)
    return (.array items, rest)
  | fuel + 1, '\x7b' :: rest => do
    guard (0 < room)
    let (lines, rest) ← readPairs? fuel (room - 1) (← skipFiller? false rest)
    return (.table .inline (← Table.assignAll? [] lines), rest)
  | _ + 1, '"' :: _ => (readString? s).map fun (value, rest) => (.string value, rest)
  | _ + 1, '\'' :: _ => (readString? s).map fun (value, rest) => (.string value, rest)
  | _ + 1, _ => readScalar? s
  | 0, _ => none
/-- The items of an array up to its closing bracket. -/
def readItems? (fuel room : Nat) (s : List Char) : Option (List Value × List Char) :=
  match fuel, s with
  | _ + 1, ']' :: rest => some ([], rest)
  | fuel + 1, s => do
    let (item, rest) ← readValue? fuel room s
    match ← skipFiller? false rest with
    | ',' :: rest =>
      let (items, rest) ← readItems? fuel room (← skipFiller? false rest)
      return (item :: items, rest)
    | ']' :: rest => return ([item], rest)
    | _ => none
  | 0, _ => none
/-- The assignments of an inline table up to its closing brace. -/
def readPairs? (fuel room : Nat) (s : List Char) : Option (List (Key × Value) × List Char) :=
  match fuel, s with
  | _ + 1, '\x7d' :: rest => some ([], rest)
  | fuel + 1, s => do
    let (key, rest) ← readKey? s
    let rest ← expect? '=' (← skipFiller? false rest)
    let (value, rest) ← readValue? fuel room (← skipFiller? false rest)
    match ← skipFiller? false rest with
    | ',' :: rest =>
      let (pairs, rest) ← readPairs? fuel room (← skipFiller? false rest)
      return ((key, value) :: pairs, rest)
    | '\x7d' :: rest => return ([(key, value)], rest)
    | _ => none
  | 0, _ => none
end

-- ---------------------------------------------------------------------------
-- Lines
-- ---------------------------------------------------------------------------

inductive Line
  | assignment (key : Key) (value : Value)
  | tableHeader (key : Key)
  | arrayHeader (key : Key)

/-- What follows a value or a header on its line does not matter to it. -/
def isLineEnd (s : List Char) : Bool :=
  match dropBlanks s with
  | [] => true
  | c :: _ => c = '\n' || c = '\r' || c = '#'

def readLine? : List Char → Option (Line × List Char)
  | '[' :: '[' :: rest => do
    let (key, rest) ← readKey? rest
    return (.arrayHeader key, ← expect? ']' (← expect? ']' rest))
  | '[' :: rest => do
    let (key, rest) ← readKey? rest
    return (.tableHeader key, ← expect? ']' rest)
  | s => do
    let (key, rest) ← readKey? s
    let s := dropBlanks (← expect? '=' rest)
    let (value, rest) ← readValue? (2 * s.length + 2) maxNesting s
    return (.assignment key value, rest)

def readLines? (fuel : Nat) (s : List Char) : Option (List Line) :=
  match fuel with
  | 0 => none
  | fuel + 1 => do
    match ← skipFiller? false s with
    | [] => return []
    | s =>
      let (line, rest) ← readLine? s
      guard (isLineEnd rest)
      return line :: (← readLines? fuel rest)

/-- The assignments before the first header, and every header with the assignments below it. -/
def sections : List Line → List (Key × Value) × List (Line × List (Key × Value))
  | [] => ([], [])
  | .assignment key value :: rest =>
    let (lines, more) := sections rest
    ((key, value) :: lines, more)
  | header :: rest =>
    let (lines, more) := sections rest
    ([], (header, lines) :: more)

def addSection? (root : Table) : Line × List (Key × Value) → Option Table
  | (.tableHeader key, lines) => root.addTable? key lines
  | (.arrayHeader key, lines) => root.appendTable? key lines
  | (.assignment key value, lines) => root.assignAll? ((key, value) :: lines)

/-- The root table of a text; a byte order mark at its start is passed over. -/
def read? (text : String) : Option Table := do
  let s := match text.toList with
    | '\ufeff' :: rest => rest
    | s => s
  let (lines, more) := sections (← readLines? (s.length + 1) s)
  more.foldlM addSection? (← Table.assignAll? [] lines)

end DeclarativeSql.Toml
