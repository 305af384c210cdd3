import DeclarativeSql.Json.Decode

/-!
# Records

A record is written as an object with named members in any order, or as an array of its
fields in their order. Members are taken as they come: a repeated name is a fault before
its second value is decoded, and so is an unknown name where unknown names are refused.
Fields that are missing are looked at last, in the order of the record.
-/

namespace DeclarativeSql

structure Field (α : Type) where
  name : String
  decode : Node → Decoded α
  /-- What stands for an absent field; `none` makes the field required. -/
  absent : Option α

def required (name : String) (decode : Node → Decoded α) : Field α :=
  ⟨name, decode, none⟩

def optional (name : String) (decode : Node → Decoded α) (absent : α) : Field α :=
  ⟨name, decode, some absent⟩

inductive Fields : List Type → Type 1
  | nil : Fields []
  | cons : Field α → Fields types → Fields (α :: types)

/-- The fields decoded so far. -/
abbrev Slots : List Type → Type
  | [] => Unit
  | α :: types => Option α × Slots types

/-- A value for every field. -/
abbrev Row : List Type → Type
  | [] => Unit
  | α :: types => α × Row types

namespace Fields

def names : Fields types → List String
  | .nil => []
  | .cons field rest => field.name :: rest.names

def empty : Fields types → Slots types
  | .nil => ()
  | .cons _ rest => (none, rest.empty)

/-- Takes a member into its slot; `none` when no field has its name. -/
def take? : Fields types → Slots types → String → Node → Option (Decoded (Slots types))
  | .nil, _, _, _ => none
  | .cons field rest, (slot, slots), name, node =>
    if name = field.name then
      match slot with
      | some _ => some (.error (.duplicateField name))
      | none => some ((field.decode node).map fun value => (some value, slots))
    else (rest.take? slots name node).map fun taken => taken.map fun slots => (slot, slots)

def takeMembers (fields : Fields types) (refuseUnknown : Bool) :
    Slots types → List Member → Decoded (Slots types)
  | slots, [] => .ok slots
  | _, (none, _) :: _ => .error .malformed
  | slots, (some name, node) :: rest => do
    match fields.take? slots name node with
    | some taken => fields.takeMembers refuseUnknown (← taken) rest
    | none =>
      if refuseUnknown then throw (.unknownField name fields.names)
      node.skip
      fields.takeMembers refuseUnknown slots rest

def finish : Fields types → Slots types → Decoded (Row types)
  | .nil, _ => .ok ()
  | .cons field rest, (slot, slots) => do
    match slot.or field.absent with
    | some value => return (value, ← rest.finish slots)
    | none => throw (.missingField field.name)

def ofItems : Fields types → List Node → Decoded (Row types)
  | .nil, [] => .ok ()
  | .nil, _ :: _ => .error .malformed
  | .cons field rest, [] => do
    match field.absent with
    | some value => return (value, ← rest.ofItems [])
    | none => throw .malformed
  | .cons field rest, item :: items => do
    let value ← field.decode item
    return (value, ← rest.ofItems items)

def ofMembers (fields : Fields types) (refuseUnknown : Bool) (members : List Member) :
    Decoded (Row types) := do
  fields.finish (← fields.takeMembers refuseUnknown fields.empty members)

/-- Decodes an object or an array. -/
def decode (fields : Fields types) (refuseUnknown : Bool) : Node → Decoded (Row types)
  | .object members => fields.ofMembers refuseUnknown members
  | .array items => fields.ofItems items
  | _ => .error .malformed

end Fields

end DeclarativeSql
