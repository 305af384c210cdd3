import DeclarativeSql.Proofs.Sql.Reading
import DeclarativeSql.Proofs.Statement.Parts

/-!
# The table of a statement and what stands behind it

Nothing that a composition brings in is a table or a `WHERE` of the statement itself. The first
table of a statement is therefore the one behind `FROM`, and what follows it is the
restriction.
-/

namespace DeclarativeSql

/-- Tokens that only the statement itself has, once each. -/
def Token.isFrame : Token → Bool
  | .whereRows | .qualified _ _ => true
  | _ => false

namespace Fragment

/-- A part of a statement without tokens of its frame. -/
def Inner (fragment : Fragment) : Prop :=
  ∀ token ∈ fragment, token.isFrame = false

@[simp] theorem inner_nil : Inner [] := by
  simp [Inner]

@[simp] theorem inner_cons : Inner (token :: rest) ↔ token.isFrame = false ∧ Inner rest :=
  List.forall_mem_cons

@[simp] theorem inner_append : Inner (first ++ second) ↔ Inner first ∧ Inner second :=
  List.forall_mem_append

theorem forall_mem_joined {P : Token → Prop} {separator : Fragment}
    (hs : ∀ token ∈ separator, P token) {fragments : List Fragment}
    (h : ∀ fragment ∈ fragments, ∀ token ∈ fragment, P token) :
    ∀ token ∈ joined separator fragments, P token := by
  induction fragments with
  | nil => exact List.forall_mem_nil P
  | cons fragment rest ih =>
    rw [List.forall_mem_cons] at h
    cases rest with
    | nil => exact h.1
    | cons next rest =>
      rw [joined, List.forall_mem_append, List.forall_mem_append]
      · exact ⟨⟨h.1, hs⟩, ih h.2⟩
      · exact List.cons_ne_nil next rest

theorem Inner.whereRows_notMem {fragment : Fragment} (h : fragment.Inner) :
    Token.whereRows ∉ fragment := by
  intro hw
  cases h _ hw

/-- What stands behind the table. -/
def afterTable : Fragment → Fragment
  | [] => []
  | .qualified _ _ :: rest => rest
  | _ :: rest => afterTable rest

theorem afterTable_cons {token : Token} (h : token.isFrame = false) (rest : Fragment) :
    afterTable (token :: rest) = afterTable rest := by
  cases token <;> first | rfl | cases h

theorem Inner.afterTable_append {inner : Fragment} (h : inner.Inner) (schema table : String)
    (rest : Fragment) : afterTable (inner ++ .qualified schema table :: rest) = rest := by
  induction inner with
  | nil => rfl
  | cons token inner ih =>
    rw [inner_cons] at h
    rw [List.cons_append, afterTable_cons h.1, ih h.2]

end Fragment

-- ---------------------------------------------------------------------------
-- Parts of a statement
-- ---------------------------------------------------------------------------

/-- Tokens of an atom: no connective, no parenthesis and nothing of the frame. -/
def Token.isPlain (token : Token) : Bool :=
  !token.isMark && !token.isFrame

theorem Token.isPlain_iff {token : Token} :
    token.isPlain = true ↔ token.isMark = false ∧ token.isFrame = false := by
  simp [Token.isPlain]

theorem Grammar.Comparison.plain (h : Grammar.Comparison fragment) :
    ∀ token ∈ fragment, token.isPlain = true := by
  cases h with
  | null ht => rcases ht with rfl | rfl <;> simp [Token.isPlain, Token.isMark, Token.isFrame]
  | number => simp [Token.isPlain, Token.isMark, Token.isFrame]
  | text => simp [Token.isPlain, Token.isMark, Token.isFrame]
  | pattern ht => rcases ht with rfl | rfl <;> simp [Token.isPlain, Token.isMark, Token.isFrame]

/-- Tokens that conditions and their groups are made of. -/
def Token.isPredicateWord : Token → Bool
  | .and | .or | .openParen | .closeParen | .space | .column _ | .comparison _ | .isNull
  | .isNotNull | .like | .ilike | .number _ | .string _ => true
  | _ => false

theorem Grammar.Comparison.isPredicateWord (h : Grammar.Comparison fragment) :
    ∀ token ∈ fragment, token.isPredicateWord = true := by
  cases h with
  | null ht => rcases ht with rfl | rfl <;> simp [Token.isPredicateWord]
  | number => simp [Token.isPredicateWord]
  | text => simp [Token.isPredicateWord]
  | pattern ht => rcases ht with rfl | rfl <;> simp [Token.isPredicateWord]

theorem Predicate.grouped_isPredicateWord (connective : Connective) {members : List Fragment}
    (h : ∀ member ∈ members, ∀ token ∈ member, token.isPredicateWord = true) :
    ∀ token ∈ Predicate.grouped connective members, token.isPredicateWord = true := by
  have hs : ∀ token ∈ connective.separator, token.isPredicateWord = true := by
    cases connective <;> decide
  have hj := Fragment.forall_mem_joined hs h
  rw [Predicate.grouped, Fragment.enclosed, List.cons_append, List.forall_mem_cons,
    List.forall_mem_append, List.forall_mem_singleton]
  exact ⟨rfl, hj, rfl⟩

theorem Predicate.compileAt_isPredicateWord (depth : Nat) (p : Predicate)
    (h : p.compileAt limit depth = .ok fragment) :
    ∀ token ∈ fragment, token.isPredicateWord = true :=
  p.compileAt_induction (P := fun fragment => ∀ token ∈ fragment, token.isPredicateWord = true)
    (fun hc => (Condition.compile_derives hc).isPredicateWord) Predicate.grouped_isPredicateWord
    depth h

/-- Tokens that case expressions are made of. -/
def Token.isExpressionWord : Token → Bool
  | .caseStart | .caseWhen | .caseThen | .caseElse | .caseEnd | .null => true
  | token => token.isPredicateWord

theorem Token.isExpressionWord_of_isPredicateWord {token : Token}
    (h : token.isPredicateWord = true) : token.isExpressionWord = true := by
  cases token <;> first | rfl | cases h

theorem Grammar.Result.isExpressionWord (h : Grammar.Result token) :
    token.isExpressionWord = true := by
  cases h <;> rfl

theorem CaseClause.compileBranches_isExpressionWord {clauses : List CaseClause}
    (h : CaseClause.compileBranches limit clauses = .ok fragment) :
    ∀ token ∈ fragment, token.isExpressionWord = true := by
  refine CaseClause.compileBranches_induction
    (P := fun fragment => ∀ token ∈ fragment, token.isExpressionWord = true)
    (List.forall_mem_nil _) ?_ h
  intro condition first others outcome hf ho
  have hc : ∀ token ∈ first, token.isExpressionWord = true := fun token ht =>
    Token.isExpressionWord_of_isPredicateWord (condition.compileAt_isPredicateWord 1 hf token ht)
  simp only [CaseClause.branchFragment, List.forall_mem_append, List.forall_mem_cons]
  exact ⟨⟨⟨by decide, hc⟩, rfl, rfl, rfl, outcome.token_derives.isExpressionWord,
    List.forall_mem_nil _⟩, ho⟩

theorem CaseClause.compileAll_isExpressionWord {clauses : List CaseClause}
    (h : CaseClause.compileAll limit clauses = .ok fragment) :
    ∀ token ∈ fragment, token.isExpressionWord = true := by
  obtain ⟨branches, hb, rfl⟩ := map_ok.mp h
  have ho := (CaseClause.otherwiseToken_derives clauses).isExpressionWord
  simp only [List.forall_mem_append, List.forall_mem_cons]
  exact ⟨⟨rfl, CaseClause.compileBranches_isExpressionWord hb⟩, rfl, rfl, rfl, ho, rfl, rfl,
    List.forall_mem_nil _⟩

theorem Token.isFrame_of_isExpressionWord {token : Token} (h : token.isExpressionWord = true) :
    token.isFrame = false := by
  cases token <;> first | rfl | cases h

theorem Column.compile_inner {column : Column} (h : column.compile limit name = .ok fragment) :
    Fragment.Inner fragment := by
  cases column with
  | raw sql =>
    cases h
    exact Fragment.inner_cons.mpr ⟨rfl, Fragment.inner_nil⟩
  | cased clauses =>
    obtain ⟨expression, he, rfl⟩ := map_ok.mp h
    have hi : Fragment.Inner expression := fun token ht =>
      Token.isFrame_of_isExpressionWord (CaseClause.compileAll_isExpressionWord he token ht)
    exact Fragment.inner_append.mpr ⟨hi, by simp [Token.isFrame]⟩

theorem Composition.selectList_inner {options : StatementOptions} {composition : Composition}
    (h : composition.selectList options = .ok fragment) : Fragment.Inner fragment := by
  obtain ⟨columns, hc, rfl⟩ := Composition.selectList_ok.mp h
  exact Fragment.forall_mem_joined (by simp +decide) (forall_mem_of_forall₂ hc Column.compile_inner)

/-- A statement is a part without frame tokens, its table and its restriction. -/
theorem Composition.compile_inner {options : StatementOptions} {composition : Composition}
    {parameters : Parameters}
    (h : composition.compile options used parameters = .ok statement) :
    ∃ head conditions, Fragment.Inner head ∧
      Composition.conditions options parameters = .ok conditions ∧
      statement =
        head ++ .qualified used composition.table :: Composition.restriction conditions := by
  obtain ⟨columns, hc, conditions, ho, rfl⟩ := Composition.compile_ok.mp h
  refine ⟨[.select, .space] ++ columns ++ [.space, .fromTable, .space], conditions, ?_, ho, ?_⟩
  · have hi := Composition.selectList_inner hc
    simp +decide [hi]
  · simp

end DeclarativeSql
