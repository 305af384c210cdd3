import DeclarativeSql.Json.Node

/-!
# Reading JSON text

`Json.read` turns a text into a tree and says whether only white space follows the
value. Strings are read in two steps: `stringBody?` finds the closing quote and
checks the escapes, `joinPieces?` pairs surrogates.
-/

namespace DeclarativeSql.Json

def isSpace (c : Char) : Bool :=
  c = ' ' || c = '\n' || c = '\t' || c = '\r'

def skipSpace (s : List Char) : List Char :=
  s.dropWhile isSpace

-- ---------------------------------------------------------------------------
-- Strings
-- ---------------------------------------------------------------------------

/-- A piece of a string: a character, or a 16-bit unit written as a `u` escape. -/
inductive Piece where
  | char (c : Char)
  | unit (value : Nat)
  deriving DecidableEq

def hexValue? (c : Char) : Option Nat :=
  if '0' ≤ c && c ≤ '9' then some (c.toNat - 0x30)
  else if 'a' ≤ c && c ≤ 'f' then some (c.toNat - 0x57)
  else if 'A' ≤ c && c ≤ 'F' then some (c.toNat - 0x37)
  else none

def hexNumber? (digits : List Char) : Option Nat :=
  digits.foldlM (fun value digit => (hexValue? digit).map (16 * value + ·)) 0

def unescape? : Char → Option Char
  | '"' => some '"'
  | '\\' => some '\\'
  | '/' => some '/'
  | 'b' => some '\x08'
  | 'f' => some '\x0c'
  | 'n' => some '\n'
  | 'r' => some '\r'
  | 't' => some '\t'
  | _ => none

/-- The pieces up to the closing quote, and the rest; `none` where the text is no string. -/
def stringBody? : List Char → Option (List Piece × List Char)
  | [] => none
  | '"' :: rest => some ([], rest)
  | '\\' :: 'u' :: a :: b :: c :: d :: rest => do
    let value ← hexNumber? [a, b, c, d]
    let (pieces, rest) ← stringBody? rest
    return (.unit value :: pieces, rest)
  | '\\' :: letter :: rest => do
    let c ← unescape? letter
    let (pieces, rest) ← stringBody? rest
    return (.char c :: pieces, rest)
  | c :: rest =>
    if c.toNat < 0x20 then none
    else (stringBody? rest).map fun (pieces, rest) => (.char c :: pieces, rest)

def isHighSurrogate (value : Nat) : Bool :=
  0xD800 ≤ value && value < 0xDC00

def isLowSurrogate (value : Nat) : Bool :=
  0xDC00 ≤ value && value < 0xE000

/-- The characters of a string, or `none` if a surrogate stands alone. -/
def joinPieces? : List Piece → Option (List Char)
  | [] => some []
  | .char c :: rest => (joinPieces? rest).map (c :: ·)
  | .unit high :: .unit low :: rest =>
    if isHighSurrogate high then
      if isLowSurrogate low then
        let c := Char.ofNat (0x10000 + (high - 0xD800) * 0x400 + (low - 0xDC00))
        (joinPieces? rest).map (c :: ·)
      else none
    else if isLowSurrogate high then none
    else (joinPieces? (.unit low :: rest)).map (Char.ofNat high :: ·)
  | .unit value :: rest =>
    if isHighSurrogate value || isLowSurrogate value then none
    else (joinPieces? rest).map (Char.ofNat value :: ·)

def stringOfPieces? (pieces : List Piece) : Option String :=
  (joinPieces? pieces).map String.ofList

-- ---------------------------------------------------------------------------
-- Values
-- ---------------------------------------------------------------------------

def readString (s : List Char) : Node × Option (List Char) :=
  match stringBody? s with
  | none => (.broken, none)
  | some (pieces, rest) =>
    match stringOfPieces? pieces with
    | some value => (.string value, some rest)
    | none => (.unreadable, some rest)

def readNumber (s : List Char) : Node × Option (List Char) :=
  match Number.Literal.scan? s with
  | none => (.broken, none)
  | some (literal, rest) =>
    match Number.ofLiteral? literal with
    | some value => (.number value, some rest)
    | none => (.unreadable, some rest)

/-- A container is read at any depth and kept down to `Node.maxNesting`. -/
def close (level : Nat) (node : Node) (rest : Option (List Char)) : Node × Option (List Char) :=
  if level < Node.maxNesting then (node, rest)
  else if rest.isSome then (.unreadable, rest)
  else (.broken, none)

mutual
/-- The value at the front of the text, inside `level` open containers, and the rest of the
text unless it breaks off. -/
def readValue (fuel level : Nat) (s : List Char) : Node × Option (List Char) :=
  match fuel with
  | 0 => (.broken, none)
  | fuel + 1 =>
    match skipSpace s with
    | 'n' :: 'u' :: 'l' :: 'l' :: rest => (.null, some rest)
    | 't' :: 'r' :: 'u' :: 'e' :: rest => (.bool true, some rest)
    | 'f' :: 'a' :: 'l' :: 's' :: 'e' :: rest => (.bool false, some rest)
    | '"' :: rest => readString rest
    | '[' :: rest =>
      match skipSpace rest with
      | ']' :: rest => close level (.array []) (some rest)
      | rest =>
        let (items, rest) := readItems fuel (level + 1) rest
        close level (.array items) rest
    | '\x7b' :: rest =>
      match skipSpace rest with
      | '\x7d' :: rest => close level (.object []) (some rest)
      | rest =>
        let (members, rest) := readMembers fuel (level + 1) rest
        close level (.object members) rest
    | rest => readNumber rest
/-- The items of a nonempty array up to its closing bracket. -/
def readItems (fuel level : Nat) (s : List Char) : List Node × Option (List Char) :=
  match fuel with
  | 0 => ([.broken], none)
  | fuel + 1 =>
    let (item, rest) := readValue fuel level s
    match rest with
    | none => ([item], none)
    | some rest =>
      match skipSpace rest with
      | ',' :: rest =>
        let (items, rest) := readItems fuel level rest
        (item :: items, rest)
      | ']' :: rest => ([item], some rest)
      | _ => ([item, .broken], none)
/-- The members of a nonempty object up to its closing brace. -/
def readMembers (fuel level : Nat) (s : List Char) : List Member × Option (List Char) :=
  match fuel with
  | 0 => ([(none, .broken)], none)
  | fuel + 1 =>
    match skipSpace s with
    | '"' :: rest =>
      match stringBody? rest with
      | none => ([(none, .broken)], none)
      | some (pieces, rest) =>
        let name := stringOfPieces? pieces
        match skipSpace rest with
        | ':' :: rest =>
          let (value, rest) := readValue fuel level rest
          match rest with
          | none => ([(name, value)], none)
          | some rest =>
            match skipSpace rest with
            | ',' :: rest =>
              let (members, rest) := readMembers fuel level rest
              ((name, value) :: members, rest)
            | '\x7d' :: rest => ([(name, value)], some rest)
            | _ => ([(name, value), (none, .broken)], none)
        | _ => ([(name, .broken)], none)
    | _ => ([(none, .broken)], none)
end

/-- Every step but the one into an item reads a character, so twice the length is fuel enough. -/
def fuelFor (s : List Char) : Nat :=
  2 * s.length + 2

/-- The value of a text, and whether only white space follows it. -/
def read (text : String) : Node × Bool :=
  let s := text.toList
  let (node, rest) := readValue (fuelFor s) 0 s
  (node, rest.any fun rest => (skipSpace rest).isEmpty)

end DeclarativeSql.Json
