import Mathlib.Order.BoundedOrder.Lattice
import DeclarativeSql.Query.Predicate

/-!
# Trees of conditions

The groups of a predicate and its value. Truth values may come from any lattice with a least
and a greatest element: the two values of `Bool` and the three of `Truth` are such lattices.
-/

namespace DeclarativeSql

-- ---------------------------------------------------------------------------
-- Groups
-- ---------------------------------------------------------------------------

mutual
/-- The members of every group, group by group. -/
def Predicate.groups : Predicate → List (List Predicate)
  | .leaf _ => []
  | .group _ children => children :: Predicate.allGroups children
def Predicate.allGroups : List Predicate → List (List Predicate)
  | [] => []
  | child :: rest => child.groups ++ Predicate.allGroups rest
end

-- ---------------------------------------------------------------------------
-- Truth values
-- ---------------------------------------------------------------------------

/-- A comparison with null is unknown. -/
inductive Truth
  | no
  | unknown
  | yes
  deriving DecidableEq

def Truth.rank : Truth → Nat
  | no => 0
  | unknown => 1
  | yes => 2

instance : LinearOrder Truth :=
  LinearOrder.lift' Truth.rank fun a b => by cases a <;> cases b <;> simp [Truth.rank]

instance : BoundedOrder Truth where
  top := .yes
  bot := .no
  le_top a := by cases a <;> decide
  bot_le a := by cases a <;> decide

/-- A conjunction takes the least of its values, a disjunction the greatest. -/
def Connective.combine [Lattice α] [BoundedOrder α] : Connective → List α → α
  | .and, values => values.foldr (· ⊓ ·) ⊤
  | .or, values => values.foldr (· ⊔ ·) ⊥

example : Connective.and.combine [Truth.yes, .unknown] = .unknown := by decide

section
variable [Lattice α] [BoundedOrder α]

theorem Connective.combine_singleton (connective : Connective) (value : α) :
    connective.combine [value] = value := by
  cases connective <;> simp [Connective.combine]

mutual
/-- The value of a predicate whose conditions have the values of `truth`. -/
def Predicate.value (truth : Condition → α) : Predicate → α
  | .leaf condition => truth condition
  | .group connective children => connective.combine (Predicate.values truth children)
def Predicate.values (truth : Condition → α) : List Predicate → List α
  | [] => []
  | child :: rest => child.value truth :: Predicate.values truth rest
end

end

end DeclarativeSql
