import DeclarativeSql.Query.Column
import DeclarativeSql.Statement.Predicate

/-!
# Case expressions

The branches keep their order. Clauses without a condition add no branch; the last of them
says what holds otherwise, and without one it is `NULL`.
-/

namespace DeclarativeSql

def Outcome.token : Outcome → Token
  | .column name => .column name
  | .value literal => literal.literal

namespace CaseClause

def otherwise? : CaseClause → Option Outcome
  | .otherwise outcome => some outcome
  | .branch _ _ => none

/-- The outcome of the last clause without a condition. -/
def lastOtherwise? (clauses : List CaseClause) : Option Outcome :=
  (clauses.filterMap otherwise?).getLast?

def branchFragment (condition : Fragment) (outcome : Outcome) : Fragment :=
  [.space, .caseWhen, .space] ++ condition ++ [.space, .caseThen, .space, outcome.token]

def compileBranches (limit : Nat) : List CaseClause → Compiled Fragment
  | [] => .ok []
  | .otherwise _ :: rest => compileBranches limit rest
  | .branch condition outcome :: rest => do
    let fragment ← condition.compile limit
    return branchFragment fragment outcome ++ (← compileBranches limit rest)

def otherwiseToken (clauses : List CaseClause) : Token :=
  ((lastOtherwise? clauses).map Outcome.token).getD .null

def compileAll (limit : Nat) (clauses : List CaseClause) : Compiled Fragment :=
  (compileBranches limit clauses).map fun branches =>
    .caseStart :: branches ++
      [.space, .caseElse, .space, otherwiseToken clauses, .space, .caseEnd]

end CaseClause

end DeclarativeSql
