import DeclarativeSql.Json.Reader

/-!
# Decoding

A decoder takes a tree to a value or to the first fault it meets. Faults of the text
and values of the wrong kind are `malformed`; the other faults name what was expected.
-/

namespace DeclarativeSql

inductive DecodeError where
  | malformed
  | missingField (name : String)
  | duplicateField (name : String)
  | unknownField (name : String) (expected : List String)
  | unknownVariant (name : String) (expected : List String)
  | noAlternative (type : String)
  /-- The fields are in place but contradict a rule of their own. -/
  | rejected (reason : String)
  deriving DecidableEq

namespace DecodeError

def inTicks (name : String) : String :=
  "`" ++ name ++ "`"

/-- One name alone, two with `or`, more as a list. -/
def expectation : List String → String
  | [] => "there are no fields"
  | [name] => "expected " ++ inTicks name
  | [first, second] => "expected " ++ inTicks first ++ " or " ++ inTicks second
  | names => "expected one of " ++ ", ".intercalate (names.map inTicks)

/-- The text of a fault that has one of its own. -/
def message? : DecodeError → Option String
  | .malformed => none
  | .missingField name => some ("missing field " ++ inTicks name)
  | .duplicateField name => some ("duplicate field " ++ inTicks name)
  | .unknownField name expected =>
    some ("unknown field " ++ inTicks name ++ ", " ++ expectation expected)
  | .unknownVariant name expected =>
    some ("unknown variant " ++ inTicks name ++ ", " ++ expectation expected)
  | .noAlternative type => some ("data did not match any variant of untagged enum " ++ type)
  | .rejected reason => some reason

def message (error : DecodeError) : String :=
  error.message?.getD "not JSON of the expected form"

end DecodeError

abbrev Decoded := Except DecodeError

namespace Node

def asString : Node → Decoded String
  | .string value => .ok value
  | _ => .error .malformed

def asBool : Node → Decoded Bool
  | .bool value => .ok value
  | _ => .error .malformed

def asNumber : Node → Decoded Number
  | .number value => .ok value
  | _ => .error .malformed

/-- A whole number of 64 bits without a sign. -/
def asNatural : Node → Decoded Nat
  | .number (.int value) =>
    if 0 ≤ value && value.toNat < Nat.pow 2 64 then .ok value.toNat else .error .malformed
  | _ => .error .malformed

def asOption (read : Node → Decoded α) : Node → Decoded (Option α)
  | .null => .ok none
  | node => (read node).map some

def asList (read : Node → Decoded α) : Node → Decoded (List α)
  | .array items => items.mapM read
  | _ => .error .malformed

/-- One of several names as a string. -/
def asNameIn (names : List String) : Node → Decoded String
  | .string name => if name ∈ names then .ok name else .error (.unknownVariant name names)
  | _ => .error .malformed

/-- One of several names, as a string or as the only member of an object with a null value. -/
def asVariant (names : List String) : Node → Decoded String
  | .object ((some name, value) :: rest) =>
    if name ∈ names then
      match value, rest with
      | .null, [] => .ok name
      | _, _ => .error .malformed
    else .error (.unknownVariant name names)
  | node => node.asNameIn names

/-- A value that nothing is decoded from. -/
def skip (node : Node) : Decoded Unit :=
  if node.isWellFormed then .ok () else .error .malformed

/-- Refuses a tree that is not readable throughout, before any part of it is decoded. -/
def inFull (node : Node) : Decoded Unit :=
  if node.isReadable then .ok () else .error .malformed

end Node

/-- Decodes a text: the value first, then nothing but white space. -/
def decodeText (decode : Node → Decoded α) (text : String) : Decoded α :=
  match Json.read text with
  | (node, isComplete) => do
    let value ← decode node
    if isComplete then return value else throw .malformed

end DeclarativeSql
