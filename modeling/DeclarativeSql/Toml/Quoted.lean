import DeclarativeSql.Json.Reader

/-!
# TOML strings

Strings between double quotes have escapes, strings between single quotes have none. Either
may run over several lines between three quotes; then a line break right after the opening
quotes does not count, and one or two quotes may stand right before the closing ones.
-/

namespace DeclarativeSql.Toml

/-- A tab, or any character but the control characters of ASCII. -/
def isTextChar (c : Char) : Bool :=
  c = '\t' || (0x20 ≤ c.toNat && c.toNat ≠ 0x7F)

def isBlank (c : Char) : Bool :=
  c = ' ' || c = '\t'

def dropBlanks (s : List Char) : List Char :=
  s.dropWhile isBlank

-- ---------------------------------------------------------------------------
-- Escapes
-- ---------------------------------------------------------------------------

def simpleEscape? : Char → Option Char
  | 'b' => some '\x08'
  | 't' => some '\t'
  | 'n' => some '\n'
  | 'f' => some '\x0c'
  | 'r' => some '\r'
  | 'e' => some '\x1b'
  | '"' => some '"'
  | '\\' => some '\\'
  | _ => none

/-- How many hexadecimal digits follow the letter of an escape. -/
def hexWidth? : Char → Option Nat
  | 'x' => some 2
  | 'u' => some 4
  | 'U' => some 8
  | _ => none

/-- The character with a code point; surrogates have none. -/
def charOf? (point : Nat) : Option Char :=
  if point.isValidChar then some (Char.ofNat point) else none

/-- The character of an escape behind the backslash, and the number of characters it takes. -/
def escape? : List Char → Option (Char × Nat)
  | [] => none
  | letter :: rest =>
    match simpleEscape? letter, hexWidth? letter with
    | some c, _ => some (c, 1)
    | none, some width => do
      let digits := rest.take width
      guard (digits.length = width)
      return (← charOf? (← Json.hexNumber? digits), width + 1)
    | none, none => none

-- ---------------------------------------------------------------------------
-- On one line
-- ---------------------------------------------------------------------------

/-- The characters up to the closing quote, and the rest. The first argument counts characters
of an escape that is already read. -/
def basicBody? : Nat → List Char → Option (List Char × List Char)
  | _, [] => none
  | skip + 1, _ :: rest => basicBody? skip rest
  | 0, '"' :: rest => some ([], rest)
  | 0, '\\' :: rest => do
    let (c, width) ← escape? rest
    let (body, rest) ← basicBody? width rest
    return (c :: body, rest)
  | 0, c :: rest => do
    guard (isTextChar c)
    let (body, rest) ← basicBody? 0 rest
    return (c :: body, rest)

def literalBody? : List Char → Option (List Char × List Char)
  | [] => none
  | '\'' :: rest => some ([], rest)
  | c :: rest => do
    guard (isTextChar c)
    let (body, rest) ← literalBody? rest
    return (c :: body, rest)

-- ---------------------------------------------------------------------------
-- On several lines
-- ---------------------------------------------------------------------------

def dropNewline : List Char → List Char
  | '\n' :: rest => rest
  | '\r' :: '\n' :: rest => rest
  | rest => rest

/-- Behind three closing quotes: up to two more belong to the string. -/
def closing (quote : Char) : List Char → List Char × List Char
  | a :: b :: rest =>
    if a = quote && b = quote then ([a, b], rest)
    else if a = quote then ([a], b :: rest)
    else ([], a :: b :: rest)
  | [a] => if a = quote then ([a], []) else ([], [a])
  | [] => ([], [])

def isBreak (c : Char) : Bool :=
  isBlank c || c = '\n' || c = '\r'

/-- A backslash at the end of a line: the white space that it swallows, with at least one line
break before any other text. -/
def continuation? (s : List Char) : Option Nat :=
  let space := s.takeWhile isBreak
  match dropBlanks space with
  | '\n' :: _ => some space.length
  | '\r' :: '\n' :: _ => some space.length
  | _ => none

/-- A carriage return belongs to a line break. -/
def isLineChar (c : Char) (rest : List Char) : Bool :=
  isTextChar c || c = '\n' || (c = '\r' && rest.head? = some '\n')

/-- Whether every carriage return in front of `rest` is followed by a line feed. -/
def areBreaks : List Char → Bool
  | [] => true
  | '\r' :: '\n' :: rest => areBreaks rest
  | '\r' :: _ => false
  | _ :: rest => areBreaks rest

def multilineBasicBody? : Nat → List Char → Option (List Char × List Char)
  | _, [] => none
  | skip + 1, _ :: rest => multilineBasicBody? skip rest
  | 0, '"' :: '"' :: '"' :: rest => some (closing '"' rest)
  | 0, '\\' :: rest =>
    match continuation? rest with
    | some width => do
      guard (areBreaks (rest.take width))
      multilineBasicBody? width rest
    | none => do
      let (c, width) ← escape? rest
      let (body, rest) ← multilineBasicBody? width rest
      return (c :: body, rest)
  | 0, c :: rest => do
    guard (isLineChar c rest)
    let (body, rest) ← multilineBasicBody? 0 rest
    return (c :: body, rest)

def multilineLiteralBody? : List Char → Option (List Char × List Char)
  | [] => none
  | '\'' :: '\'' :: '\'' :: rest => some (closing '\'' rest)
  | c :: rest => do
    guard (isLineChar c rest)
    let (body, rest) ← multilineLiteralBody? rest
    return (c :: body, rest)

-- ---------------------------------------------------------------------------
-- Any string
-- ---------------------------------------------------------------------------

def readLineString? : List Char → Option (String × List Char)
  | '"' :: rest => (basicBody? 0 rest).map fun (body, rest) => (String.ofList body, rest)
  | '\'' :: rest => (literalBody? rest).map fun (body, rest) => (String.ofList body, rest)
  | _ => none

def readString? : List Char → Option (String × List Char)
  | '"' :: '"' :: '"' :: rest =>
    (multilineBasicBody? 0 (dropNewline rest)).map fun (body, rest) => (String.ofList body, rest)
  | '\'' :: '\'' :: '\'' :: rest =>
    (multilineLiteralBody? (dropNewline rest)).map fun (body, rest) => (String.ofList body, rest)
  | s => readLineString? s

end DeclarativeSql.Toml
