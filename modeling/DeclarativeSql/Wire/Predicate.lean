import DeclarativeSql.Query.Predicate
import DeclarativeSql.Wire.Condition

/-!
# The written forms of predicates

In the branches of a column a condition stands under `when`. In row filters it stands by
itself, and an object is a group if its `and`, or else its `or`, is a list of filters;
other members do not matter there.
-/

namespace DeclarativeSql.Predicate

-- ---------------------------------------------------------------------------
-- Under `when`, `and` and `or`
-- ---------------------------------------------------------------------------

def caseNames : List String := ["when", "and", "or"]

mutual
/-- The only member of an object says what the value is. -/
def ofNode : Node → Decoded Predicate
  | .string name =>
    if name ∈ caseNames then .error .malformed else .error (.unknownVariant name caseNames)
  | .object ((some name, value) :: rest) => do
    let predicate ←
      if name = "when" then (Condition.ofNode value).map .leaf
      else if name = "and" then (groupOfNode value).map (.group .and)
      else if name = "or" then (groupOfNode value).map (.group .or)
      else .error (.unknownVariant name caseNames)
    if rest.isEmpty then return predicate else throw .malformed
  | _ => .error .malformed
def groupOfNode : Node → Decoded (List Predicate)
  | .array items => ofNodes items
  | _ => .error .malformed
def ofNodes : List Node → Decoded (List Predicate)
  | [] => .ok []
  | node :: rest => do
    let child ← ofNode node
    return child :: (← ofNodes rest)
end

mutual
def toJson : Predicate → Json
  | .leaf condition => .object [("when", condition.toJson)]
  | .group connective children => .object [(connective.name, .array (allToJson children))]
def allToJson : List Predicate → List Json
  | [] => []
  | child :: rest => child.toJson :: allToJson rest
end

-- ---------------------------------------------------------------------------
-- In row filters
-- ---------------------------------------------------------------------------

/-- Whether a name stands in exactly one member; of several none is taken. -/
def isNamed (name : String) (members : List Member) : Bool :=
  members.any fun member => member.1 = some name

mutual
/-- The first form that fits: a group under `and`, a group under `or`, a condition. -/
def filterOfNode? : Node → Option Predicate
  | .object members =>
    match membersGroup? "and" members with
    | some children => some (.group .and children)
    | none =>
      match membersGroup? "or" members with
      | some children => some (.group .or children)
      | none => (Condition.ofNode (.object members)).toOption.map .leaf
  | node => (Condition.ofNode node).toOption.map .leaf
/-- The filters under a name that occurs once. -/
def membersGroup? (name : String) : List Member → Option (List Predicate)
  | [] => none
  | (key, value) :: rest =>
    if key = some name then
      if isNamed name rest then none else filterGroup? value
    else membersGroup? name rest
def filterGroup? : Node → Option (List Predicate)
  | .array items => filtersOfNodes? items
  | _ => none
def filtersOfNodes? : List Node → Option (List Predicate)
  | [] => some []
  | node :: rest => do
    let child ← filterOfNode? node
    return child :: (← filtersOfNodes? rest)
end

/-- The predicate of a filter that has been read in full. -/
def ofFilterNode (node : Node) : Decoded Predicate :=
  match filterOfNode? node with
  | some predicate => .ok predicate
  | none => .error (.noAlternative "FilterExpr")

def ofFilter (node : Node) : Decoded Predicate := do
  node.inFull
  ofFilterNode node

mutual
/-- The members of a filter, which may stand beside others. -/
def filterMembers : Predicate → List (String × Json)
  | .leaf condition => condition.members
  | .group connective children => [(connective.name, .array (filtersToJson children))]
def filtersToJson : List Predicate → List Json
  | [] => []
  | child :: rest => .object child.filterMembers :: filtersToJson rest
end

def filterToJson (predicate : Predicate) : Json :=
  .object predicate.filterMembers

end DeclarativeSql.Predicate
