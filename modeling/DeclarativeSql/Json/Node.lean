import DeclarativeSql.Json.Basic

/-!
# JSON text as read

Reading a text always gives a tree. Where the text stops being JSON the tree holds
`broken`, and nothing follows it. A piece of well-formed text without a value is
`unreadable`: a number that is too large, a string with an unpaired surrogate, or a
container that is nested too deeply. Such a piece may be skipped but not decoded.
So a decoder that goes through a tree from left to right meets the faults of the
text in their order, between its own.
-/

namespace DeclarativeSql

inductive Node where
  | null
  | bool (value : Bool)
  | number (value : Number)
  | string (value : String)
  | array (items : List Node)
  | object (members : List (Option String × Node))
  | unreadable
  | broken

/-- A member whose name is `none` has an unreadable name; with a `broken` value it stands for
the point where the text of the object breaks off. -/
abbrev Member := Option String × Node

namespace Node

/-- Containers may be nested this deep. -/
def maxNesting : Nat := 127

mutual
/-- Whether a piece of text may be skipped: it is JSON throughout. -/
def isWellFormed : Node → Bool
  | .broken => false
  | .array items => allWellFormed items
  | .object members => membersWellFormed members
  | _ => true
def allWellFormed : List Node → Bool
  | [] => true
  | item :: rest => item.isWellFormed && allWellFormed rest
def membersWellFormed : List Member → Bool
  | [] => true
  | (_, value) :: rest => value.isWellFormed && membersWellFormed rest
end

mutual
/-- Whether every piece of the text has a value. -/
def isReadable : Node → Bool
  | .broken | .unreadable => false
  | .array items => allReadable items
  | .object members => membersReadable members
  | _ => true
def allReadable : List Node → Bool
  | [] => true
  | item :: rest => item.isReadable && allReadable rest
def membersReadable : List Member → Bool
  | [] => true
  | (name, value) :: rest => name.isSome && value.isReadable && membersReadable rest
end

end Node

end DeclarativeSql
