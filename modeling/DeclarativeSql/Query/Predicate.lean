import DeclarativeSql.Query.Condition

/-!
# Predicates

Conditions under `and` and `or`. The branches of a column and the row filters of a query
hold the same trees; only their written forms differ.
-/

namespace DeclarativeSql

inductive Connective
  | and
  | or
  deriving DecidableEq

/-- The word that marks a group in a document. -/
def Connective.name : Connective → String
  | .and => "and"
  | .or => "or"

inductive Predicate
  | leaf (condition : Condition)
  | group (connective : Connective) (children : List Predicate)

namespace Predicate

mutual
def decideEq : (a b : Predicate) → Decidable (a = b)
  | .leaf c, .leaf d =>
    if same : c = d then isTrue (by rw [same]) else isFalse (by simpa using same)
  | .leaf _, .group _ _ => isFalse (by simp)
  | .group _ _, .leaf _ => isFalse (by simp)
  | .group k children, .group l others =>
    if same : k = l then
      match decideAllEq children others with
      | isTrue equal => isTrue (by rw [same, equal])
      | isFalse differ => isFalse (by simp [differ])
    else isFalse (by simp [same])
def decideAllEq : (a b : List Predicate) → Decidable (a = b)
  | [], [] => isTrue rfl
  | [], _ :: _ => isFalse (by simp)
  | _ :: _, [] => isFalse (by simp)
  | a :: rest, b :: others =>
    match decideEq a b with
    | isTrue equal =>
      match decideAllEq rest others with
      | isTrue restEqual => isTrue (by rw [equal, restEqual])
      | isFalse differ => isFalse (by simp [differ])
    | isFalse differ => isFalse (by simp [differ])
end

instance : DecidableEq Predicate := decideEq

mutual
/-- A leaf has height 1, a group one more than its highest child. -/
def height : Predicate → Nat
  | .leaf _ => 1
  | .group _ children => maxHeight children + 1
def maxHeight : List Predicate → Nat
  | [] => 0
  | child :: rest => max child.height (maxHeight rest)
end

mutual
/-- The conditions from left to right. -/
def leaves : Predicate → List Condition
  | .leaf condition => [condition]
  | .group _ children => allLeaves children
def allLeaves : List Predicate → List Condition
  | [] => []
  | child :: rest => child.leaves ++ allLeaves rest
end

end Predicate

end DeclarativeSql
