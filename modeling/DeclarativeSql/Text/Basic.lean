/-!
# Texts

White space is the 25 characters of the Unicode property White_Space. A text is blank when it
holds nothing else; trimming removes them at the ends only.

Splitting at a separator keeps empty pieces, so a text always has at least one piece
and joining the pieces gives it back.
-/

namespace DeclarativeSql.Text

/-- Closed ranges of code points, ascending and apart. -/
def blankRanges : List (Nat × Nat) :=
  [(0x09, 0x0D), (0x20, 0x20), (0x85, 0x85), (0xA0, 0xA0), (0x1680, 0x1680),
   (0x2000, 0x200A), (0x2028, 0x2029), (0x202F, 0x202F), (0x205F, 0x205F), (0x3000, 0x3000)]

def isBlankChar (c : Char) : Bool :=
  blankRanges.any fun range => range.1 ≤ c.toNat && c.toNat ≤ range.2

def isBlank (s : String) : Bool :=
  s.toList.all isBlankChar

def dropBlank (s : List Char) : List Char :=
  s.dropWhile isBlankChar

def trim (s : String) : String :=
  String.ofList (dropBlank (dropBlank s.toList).reverse).reverse

-- ---------------------------------------------------------------------------
-- Pieces
-- ---------------------------------------------------------------------------

def split (separator : Char) : List Char → List (List Char)
  | [] => [[]]
  | c :: rest =>
    if c = separator then [] :: split separator rest
    else
      match split separator rest with
      | [] => [[c]]
      | piece :: pieces => (c :: piece) :: pieces

def join (separator : Char) : List (List Char) → List Char
  | [] => []
  | [piece] => piece
  | piece :: pieces => piece ++ separator :: join separator pieces

def lowerAscii (c : Char) : Char :=
  if 'A' ≤ c && c ≤ 'Z' then Char.ofNat (c.toNat + 0x20) else c

end DeclarativeSql.Text
