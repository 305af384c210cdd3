import DeclarativeSql.Proofs.Sql.Cases
import DeclarativeSql.Proofs.Statement.Restriction

/-!
# What a case expression selects

`cases_select_first_match`: read as SQL reads it, a compiled list of clauses selects the outcome
of the first branch whose condition is true, else the outcome of the last clause without a
condition, else `NULL`. Where the clauses without a condition stand makes no difference, and only
the last of them does.
-/

namespace DeclarativeSql

namespace CaseClause

-- ---------------------------------------------------------------------------
-- Clauses
-- ---------------------------------------------------------------------------

section
variable [Lattice α] [BoundedOrder α] [DecidableEq α]

/-- The outcome of a branch whose condition is true. -/
def taken? (truth : Condition → α) : CaseClause → Option Outcome
  | .branch condition outcome => if condition.value truth = ⊤ then some outcome else none
  | .otherwise _ => none

/-- The outcome of the first branch that is taken, else that of the last clause without a
condition. -/
def selected? (truth : Condition → α) (clauses : List CaseClause) : Option Outcome :=
  (clauses.findSome? (taken? truth)).or (clauses.reverse.findSome? otherwise?)

end

/-- The branches in their order, and behind them the last clause without a condition. -/
def ordered (clauses : List CaseClause) : List CaseClause :=
  clauses.filter isBranch ++ (clauses.filter fun clause => !clause.isBranch).getLast?.toList

theorem otherwise?_of_isBranch {clause : CaseClause} (h : clause.isBranch = true) :
    clause.otherwise? = none := by
  cases clause with
  | branch => rfl
  | otherwise => cases h

theorem lastOtherwise?_eq (clauses : List CaseClause) :
    lastOtherwise? clauses = clauses.reverse.findSome? otherwise? := by
  rw [lastOtherwise?, List.getLast?_filterMap]

theorem compileBranches_filter (limit : Nat) (clauses : List CaseClause) :
    compileBranches limit (clauses.filter isBranch) = compileBranches limit clauses := by
  induction clauses with
  | nil => rfl
  | cons clause rest ih =>
    cases clause with
    | otherwise outcome => exact ih
    | branch condition outcome =>
      rw [List.filter_cons_of_pos rfl, compileBranches, compileBranches, ih]

theorem filter_ordered (clauses : List CaseClause) :
    (ordered clauses).filter isBranch = clauses.filter isBranch := by
  have hl : (clauses.filter fun clause => !clause.isBranch).getLast?.toList.filter isBranch =
      [] := by
    rw [List.filter_eq_nil_iff]
    intro clause hm
    have hc := List.mem_of_getLast? (Option.mem_toList.mp hm)
    simpa using (List.mem_filter.mp hc).2
  rw [ordered, List.filter_append, List.filter_filter, hl, List.append_nil]
  simp only [Bool.and_self]

theorem findSome?_otherwise? (clauses : List CaseClause) :
    clauses.findSome? otherwise? =
      (clauses.find? fun clause => !clause.isBranch).bind otherwise? := by
  induction clauses with
  | nil => rfl
  | cons clause rest ih =>
    cases clause with
    | branch condition outcome => exact ih
    | otherwise outcome => rfl

theorem lastOtherwise?_ordered (clauses : List CaseClause) :
    lastOtherwise? (ordered clauses) = lastOtherwise? clauses := by
  have hb : (clauses.filter isBranch).reverse.findSome? otherwise? = none := by
    rw [List.findSome?_eq_none_iff]
    intro clause hm
    exact otherwise?_of_isBranch (List.mem_filter.mp (List.mem_reverse.mp hm)).2
  rw [lastOtherwise?_eq, lastOtherwise?_eq, ordered, List.reverse_append, List.findSome?_append,
    hb, Option.or_none, List.getLast?_filter, findSome?_otherwise? clauses.reverse]
  cases clauses.reverse.find? fun clause => !clause.isBranch with
  | none => rfl
  | some last => exact List.findSome?_singleton

theorem compileAll_ordered (limit : Nat) (clauses : List CaseClause) :
    compileAll limit (ordered clauses) = compileAll limit clauses := by
  have hb : compileBranches limit (ordered clauses) = compileBranches limit clauses := by
    rw [← compileBranches_filter, filter_ordered, compileBranches_filter]
  rw [compileAll, compileAll, hb, otherwiseToken, lastOtherwise?_ordered, ← otherwiseToken]

-- ---------------------------------------------------------------------------
-- Reading a case expression
-- ---------------------------------------------------------------------------

/-- What a branch is read as. -/
def reading? : CaseClause → Option (Formula × Token)
  | .branch condition outcome => some (condition.formula, outcome.token)
  | .otherwise _ => none

/-- What the case expression of some clauses is read as. -/
def reading (clauses : List CaseClause) : CaseReading :=
  ⟨clauses.filterMap reading?, otherwiseToken clauses⟩

/-- Every group of a condition has a member. -/
def HasMembers : CaseClause → Prop
  | .branch condition _ => ∀ members ∈ condition.groups, members ≠ []
  | .otherwise _ => True

theorem words_result {result : Token} (h : Grammar.Result result) :
    Fragment.words [.space, .caseThen, .space, result] = [.caseThen, result] := by
  cases h <;> rfl

theorem words_branchFragment (condition : Fragment) (outcome : Outcome) (rest : Fragment) :
    (branchFragment condition outcome ++ rest).words =
      .caseWhen :: condition.words ++ .caseThen :: outcome.token :: rest.words := by
  simp only [branchFragment, Fragment.words_append, words_result outcome.token_derives,
    List.append_assoc]
  rfl

theorem isCaseWord_of_isPredicateWord {word : Token} (h : word.isPredicateWord = true) :
    word.isCaseWord = false := by
  cases word <;> first | rfl | cases h

theorem isCaseWord_of_result (h : Grammar.Result result) : result.isCaseWord = false := by
  cases h <;> rfl

theorem compileBranches_read {clauses : List CaseClause}
    (hg : ∀ clause ∈ clauses, clause.HasMembers)
    (h : compileBranches limit clauses = .ok fragment) :
    ReadsBranches (Fragment.words fragment) (clauses.filterMap reading?) := by
  induction clauses generalizing fragment with
  | nil =>
    cases h
    exact .nil
  | cons clause rest ih =>
    rw [List.forall_mem_cons] at hg
    cases clause with
    | otherwise outcome => exact ih hg.2 h
    | branch condition outcome =>
      obtain ⟨first, hf, others, ho, rfl⟩ := compileBranches_branch_ok.mp h
      rw [words_branchFragment]
      refine .cons (Predicate.reads_formula hg.1 hf) ?_
        (isCaseWord_of_result outcome.token_derives) (ih hg.2 ho)
      intro word hm
      exact isCaseWord_of_isPredicateWord
        (condition.compileAt_isPredicateWord 1 hf word (List.mem_of_mem_filter hm))

theorem words_otherwise {result : Token} (h : Grammar.Result result) :
    Fragment.words [.space, .caseElse, .space, result, .space, .caseEnd] =
      [.caseElse, result, .caseEnd] := by
  cases h <;> rfl

theorem compileAll_read {clauses : List CaseClause}
    (hg : ∀ clause ∈ clauses, clause.HasMembers)
    (h : compileAll limit clauses = .ok fragment) :
    ReadsCase (Fragment.words fragment) (reading clauses) := by
  obtain ⟨branches, hb, rfl⟩ := map_ok.mp h
  have ho := otherwiseToken_derives clauses
  rw [List.cons_append, Fragment.words, List.filter_cons_of_pos rfl, ← Fragment.words,
    Fragment.words_append, words_otherwise ho]
  exact .of (compileBranches_read hg hb) (.given (isCaseWord_of_result ho))

section
variable [Lattice α] [BoundedOrder α] [DecidableEq α]

theorem find?_reading (truth : Fragment → α) (clauses : List CaseClause) :
    ((clauses.filterMap reading?).find? fun branch => branch.1.value truth = ⊤).map Prod.snd =
      (clauses.findSome? (taken? fun condition => truth condition.words)).map Outcome.token := by
  induction clauses with
  | nil => rfl
  | cons clause rest ih =>
    cases clause with
    | otherwise outcome => exact ih
    | branch condition outcome =>
      have hr : reading? (.branch condition outcome) = some (condition.formula, outcome.token) :=
        rfl
      rw [List.filterMap_cons_some hr, List.find?_cons, List.findSome?_cons, taken?,
        condition.value_formula truth]
      by_cases ht : condition.value (fun leaf => truth leaf.words) = ⊤
      · rw [decide_eq_true ht, if_pos ht]
        rfl
      · rw [decide_eq_false ht, if_neg ht]
        exact ih

theorem selected_reading (truth : Fragment → α) (clauses : List CaseClause) :
    (reading clauses).selected truth =
      ((selected? (fun condition => truth condition.words) clauses).map Outcome.token).getD
        .null := by
  rw [CaseReading.selected, reading, find?_reading, otherwiseToken, lastOtherwise?_eq, selected?]
  cases clauses.findSome? (taken? fun condition => truth condition.words) <;> rfl

end

end CaseClause

theorem cases_select_first_match (limit : Nat) (clauses : List CaseClause) :
    (∀ fragment, CaseClause.compileAll limit clauses = .ok fragment →
      (∀ clause ∈ clauses, clause.HasMembers) →
      ∃ reading, ReadsCase fragment.words reading ∧
        (∀ other, ReadsCase fragment.words other → other = reading) ∧
        ∀ {α : Type} [Lattice α] [BoundedOrder α] [DecidableEq α] (truth : Fragment → α),
          reading.selected truth =
            ((CaseClause.selected? (fun condition => truth condition.words) clauses).map
              Outcome.token).getD .null) ∧
      CaseClause.compileAll limit (CaseClause.ordered clauses) =
        CaseClause.compileAll limit clauses := by
  refine ⟨fun fragment h hg => ?_, CaseClause.compileAll_ordered limit clauses⟩
  have hr := CaseClause.compileAll_read hg h
  exact ⟨_, hr, fun other ho => ho.unique hr, fun truth =>
    CaseClause.selected_reading truth clauses⟩

/-- Two clauses without a condition, one in front of the branches and one between them. -/
def sizesOfPaid : List CaseClause :=
  [.otherwise (.value (.text "none")),
    .branch (.group .and
      [.leaf ⟨"paid", "is_not_null", .null, none⟩,
        .group .or
          [.leaf ⟨"size", "greater_than", .number (.int 9), none⟩,
            .leaf ⟨"name", "contains", .text "THEN", none⟩]])
      (.value (.text "large")),
    .otherwise (.column "size"),
    .branch (.leaf ⟨"paid", "is_not_null", .null, none⟩) (.value (.text "small"))]

def sizesOfPaidTokens : Fragment :=
  [.caseStart, .space, .caseWhen, .space, .openParen, .column "paid", .space, .isNotNull, .space,
    .and, .space, .openParen, .column "size", .space, .comparison .greater, .space,
    .number (.int 9), .space, .or, .space, .column "name", .space, .ilike, .space,
    .string "%THEN%", .closeParen, .closeParen, .space, .caseThen, .space, .string "large",
    .space, .caseWhen, .space, .column "paid", .space, .isNotNull, .space, .caseThen, .space,
    .string "small", .space, .caseElse, .space, .column "size", .space, .caseEnd]

/-- Only what is known to be paid, and only whether it is. -/
def knownPaid (paid : Truth) (words : Fragment) : Truth :=
  if words = [.column "paid", .isNotNull] then paid else .unknown

theorem cases_select_first_match_of_paid :
    CaseClause.compileAll 3 sizesOfPaid = .ok sizesOfPaidTokens ∧
      (∀ clause ∈ sizesOfPaid, clause.HasMembers) ∧
      ∃ reading, ReadsCase sizesOfPaidTokens.words reading ∧
        reading.selected (knownPaid .yes) = .string "small" ∧
        reading.selected (knownPaid .no) = .column "size" := by
  have h : CaseClause.compileAll 3 sizesOfPaid = .ok sizesOfPaidTokens := rfl
  have hg : ∀ clause ∈ sizesOfPaid, clause.HasMembers := by
    simp [sizesOfPaid, CaseClause.HasMembers, Predicate.groups, Predicate.allGroups]
  obtain ⟨reading, hr, -, hs⟩ := (cases_select_first_match 3 sizesOfPaid).1 _ h hg
  refine ⟨h, hg, reading, hr, ?_, ?_⟩
  · rw [hs]
    decide
  · rw [hs]
    decide

end DeclarativeSql
