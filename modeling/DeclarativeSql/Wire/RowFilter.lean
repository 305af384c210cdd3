import DeclarativeSql.Query.Parameters
import DeclarativeSql.Wire.Predicate

/-!
# The written form of row filters

The metadata of a row filter stand beside the members of its predicate, so an object is the
only form, and every other member is read in full.
-/

namespace DeclarativeSql

namespace FilterMetadata

def fields : Fields [String, String, Option Nat] :=
  .cons (required "templateType" Node.asString) <|
  .cons (required "identifier" Node.asString) <|
  .cons (optional "version" (Node.asOption Node.asNatural) none) .nil

def ofNode (node : Node) : Decoded FilterMetadata := do
  let (templateType, identifier, version, ()) ← fields.decode false node
  return ⟨templateType, identifier, version⟩

def toJson (metadata : FilterMetadata) : Json :=
  .object <|
    [("templateType", .string metadata.templateType),
     ("identifier", .string metadata.identifier)] ++
      (metadata.version.map fun version => ("version", Json.number (.int version))).toList

end FilterMetadata

namespace RowFilter

/-- Takes the metadata out of the members; the others are only read. -/
def splitMembers : Option FilterMetadata → List Member →
    Decoded (Option FilterMetadata × List Member)
  | metadata, [] => .ok (metadata, [])
  | _, (none, _) :: _ => .error .malformed
  | metadata, (some name, value) :: rest => do
    if name = "metadata" then
      if metadata.isSome then throw (.duplicateField "metadata")
      splitMembers (some (← FilterMetadata.ofNode value)) rest
    else
      value.inFull
      let (metadata, others) ← splitMembers metadata rest
      return (metadata, (some name, value) :: others)

def ofNode : Node → Decoded RowFilter
  | .object members => do
    match ← splitMembers none members with
    | (none, _) => throw (.missingField "metadata")
    | (some metadata, others) => return ⟨metadata, ← Predicate.ofFilterNode (.object others)⟩
  | _ => .error .malformed

def toJson (filter : RowFilter) : Json :=
  .object (("metadata", filter.metadata.toJson) :: filter.predicate.filterMembers)

end RowFilter

end DeclarativeSql
