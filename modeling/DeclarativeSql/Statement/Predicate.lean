import DeclarativeSql.Query.Predicate
import DeclarativeSql.Statement.Condition

/-!
# Predicates in a statement

Every group stands in parentheses and no condition does, so the text does not lean on the
precedence of its connectives. Predicates higher than a limit are refused where a branch
first exceeds it.
-/

namespace DeclarativeSql

def Connective.token : Connective → Token
  | .and => .and
  | .or => .or

/-- What stands between two members of a group. -/
def Connective.separator (connective : Connective) : Fragment :=
  [.space, connective.token, .space]

namespace Predicate

/-- The text of a group from the texts of its members. -/
def grouped (connective : Connective) (members : List Fragment) : Fragment :=
  Fragment.enclosed (Fragment.joined connective.separator members)

mutual
/-- Compiles a predicate that stands `depth` levels down. -/
def compileAt (limit depth : Nat) : Predicate → Compiled Fragment
  | .leaf condition => if limit < depth then .error (.tooDeep limit) else condition.compile
  | .group connective children =>
    if limit < depth then .error (.tooDeep limit)
    else (compileAllAt limit (depth + 1) children).map (grouped connective)
def compileAllAt (limit depth : Nat) : List Predicate → Compiled (List Fragment)
  | [] => .ok []
  | child :: rest => do
    let fragment ← compileAt limit depth child
    return fragment :: (← compileAllAt limit depth rest)
end

def compile (limit : Nat) (predicate : Predicate) : Compiled Fragment :=
  compileAt limit 1 predicate

end Predicate

end DeclarativeSql
