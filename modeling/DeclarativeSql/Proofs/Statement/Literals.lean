import Mathlib.Data.List.Chain
import DeclarativeSql.Proofs.Sql.Literal
import DeclarativeSql.Proofs.Statement.Parts

/-!
# Literals in a statement

`literals_read_back`: wherever a string literal stands in a statement, reading a literal from
there on gives its value and stops where the next token begins. Two facts make it so: a quote
inside a value is written twice, and what follows a literal in a statement is a space, a comma,
a closing parenthesis or the end. The second one is an invariant of all fragments, `Guarded`.
-/

namespace DeclarativeSql

def Token.isLiteral : Token → Bool
  | .string _ | .inline _ => true
  | _ => false

/-- Tokens that may follow a literal. -/
def Token.isBreak : Token → Bool
  | .space | .comma | .closeParen => true
  | _ => false

namespace Fragment

/-- Behind a literal there is a break or nothing. -/
def Guarded (fragment : Fragment) : Prop :=
  List.IsChain (fun token next => token.isLiteral = true → next.isBreak = true) fragment

/-- Nothing, or a break and what follows it. -/
def StartsApart (fragment : Fragment) : Prop :=
  ∀ token ∈ fragment.head?, token.isBreak = true

@[simp] theorem startsApart_nil : StartsApart [] := by
  simp [StartsApart]

@[simp] theorem startsApart_cons : StartsApart (token :: rest) ↔ token.isBreak = true := by
  simp [StartsApart]

@[simp] theorem guarded_nil : Guarded [] :=
  .nil

@[simp] theorem guarded_cons {rest : Fragment} :
    Guarded (token :: rest) ↔ (token.isLiteral = true → rest.StartsApart) ∧ rest.Guarded := by
  rw [Guarded, List.isChain_cons]
  exact and_congr_left fun _ => ⟨fun h ht next hn => h next hn ht, fun h next hn ht => h ht next hn⟩

theorem Guarded.append {first second : Fragment} (hf : first.Guarded) (hs : second.Guarded)
    (ha : second.StartsApart) : (first ++ second).Guarded :=
  List.IsChain.append hf hs fun _ _ next hn _ => ha next hn

theorem Guarded.joined {mark : Token} {gap : Fragment} (hm : mark.isBreak = true)
    (hg : ∀ rest : Fragment, rest.Guarded → Guarded (mark :: gap ++ rest))
    {fragments : List Fragment} (h : ∀ fragment ∈ fragments, fragment.Guarded) :
    (joined (mark :: gap) fragments).Guarded := by
  induction fragments with
  | nil => exact guarded_nil
  | cons fragment rest ih =>
    rw [List.forall_mem_cons] at h
    cases rest with
    | nil => exact h.1
    | cons next rest =>
      rw [Fragment.joined, List.append_assoc]
      · exact h.1.append (hg _ (ih h.2)) (startsApart_cons.mpr hm)
      · simp

theorem Guarded.after {before after : Fragment}
    (h : Guarded (before ++ token :: after)) (ht : token.isLiteral = true) :
    after.StartsApart :=
  (guarded_cons.mp (List.isChain_append.mp h).2.1).1 ht

/-- The text of a fragment that starts apart is empty, or a break is its first character. -/
theorem StartsApart.head?_text_isBreak {fragment : Fragment} (h : fragment.StartsApart)
    (dialect : Dialect) :
    ∀ c ∈ (fragment.text dialect).toList.head?, c = ' ' ∨ c = ',' ∨ c = ')' := by
  cases fragment with
  | nil => simp
  | cons token rest =>
    rw [startsApart_cons] at h
    rw [text_cons, String.toList_append]
    cases token with
    | space | comma | closeParen => simp [Token.text]
    | _ => cases h

/-- The text of a fragment that starts apart does not go on with a literal before it. -/
theorem StartsApart.head?_text {fragment : Fragment} (h : fragment.StartsApart)
    (dialect : Dialect) : (fragment.text dialect).toList.head? ≠ some '\'' :=
  fun hh => absurd (h.head?_text_isBreak dialect _ hh) (by decide)

end Fragment

-- ---------------------------------------------------------------------------
-- Conditions and predicates
-- ---------------------------------------------------------------------------

theorem Condition.compile_guarded {condition : Condition} (h : condition.compile = .ok fragment) :
    Fragment.Guarded fragment := by
  cases Condition.compile_derives h with
  | null ht => rcases ht with rfl | rfl <;> simp [Token.isLiteral]
  | number => simp [Token.isLiteral]
  | text => simp [Token.isLiteral]
  | pattern ht => rcases ht with rfl | rfl <;> simp [Token.isLiteral]

theorem Predicate.grouped_guarded (connective : Connective) {members : List Fragment}
    (h : ∀ member ∈ members, member.Guarded) : (Predicate.grouped connective members).Guarded := by
  have hj : (Fragment.joined connective.separator members).Guarded := by
    refine Fragment.Guarded.joined rfl (fun rest hr => ?_) h
    cases connective <;> simp [Connective.token, Token.isLiteral, hr]
  rw [Predicate.grouped, Fragment.enclosed, List.cons_append, Fragment.guarded_cons]
  exact ⟨nofun, hj.append (by simp) (by simp [Token.isBreak])⟩

theorem Predicate.compileAt_guarded (depth : Nat) (p : Predicate)
    (h : p.compileAt limit depth = .ok fragment) : Fragment.Guarded fragment :=
  p.compileAt_induction Condition.compile_guarded Predicate.grouped_guarded depth h

-- ---------------------------------------------------------------------------
-- Columns and date filters
-- ---------------------------------------------------------------------------

/-- Branches start with a space, so each may follow the outcome of another. -/
theorem CaseClause.compileBranches_guarded {clauses : List CaseClause}
    (h : CaseClause.compileBranches limit clauses = .ok fragment) :
    Fragment.Guarded fragment ∧ Fragment.StartsApart fragment := by
  refine CaseClause.compileBranches_induction
    (P := fun fragment => fragment.Guarded ∧ fragment.StartsApart) (by simp) ?_ h
  rintro condition first others outcome hf ⟨hg, ha⟩
  have hc := Predicate.compileAt_guarded 1 condition hf
  have ht : Fragment.Guarded ([.space, .caseThen, .space, outcome.token] ++ others) := by
    simp [Token.isLiteral, hg, ha]
  have hb := hc.append ht (by simp [Token.isBreak])
  simp only [CaseClause.branchFragment, List.append_assoc]
  simpa [Token.isLiteral, Token.isBreak] using hb

theorem Column.compile_guarded {column : Column} (h : column.compile limit name = .ok fragment) :
    Fragment.Guarded fragment := by
  cases column with
  | raw sql =>
    cases h
    simp
  | cased clauses =>
    obtain ⟨branches, hb, rfl⟩ := Column.compile_cased_ok.mp h
    have hg := (CaseClause.compileBranches_guarded hb).1
    rw [List.append_assoc, List.cons_append, Fragment.guarded_cons]
    refine ⟨nofun, hg.append ?_ ?_⟩
    · simp [Token.isLiteral, Token.isBreak]
    · simp [Token.isBreak]

-- ---------------------------------------------------------------------------
-- Statements
-- ---------------------------------------------------------------------------

section
variable {options : StatementOptions} {composition : Composition}

theorem Composition.selectList_guarded (h : composition.selectList options = .ok fragment) :
    Fragment.Guarded fragment := by
  obtain ⟨columns, hc, rfl⟩ := Composition.selectList_ok.mp h
  refine Fragment.Guarded.joined rfl (fun rest hr => ?_) ?_
  · simp [Token.isLiteral, hr]
  · exact forall_mem_of_forall₂ hc Column.compile_guarded

theorem Composition.conditions_guarded {parameters : Parameters}
    (h : Composition.conditions options parameters = .ok fragments) :
    ∀ fragment ∈ fragments, Fragment.Guarded fragment := by
  refine Composition.conditions_induction ?_ ?_ ?_ h
  · simp [Fragment.since, Token.isLiteral, Token.isBreak]
  · simp [Fragment.between, Token.isLiteral, Token.isBreak]
  · exact fun filter _ _ hf => filter.predicate.compileAt_guarded 1 hf

theorem Composition.restriction_guarded {conditions : List Fragment}
    (h : ∀ condition ∈ conditions, condition.Guarded) :
    (Composition.restriction conditions).Guarded := by
  cases conditions with
  | nil => exact Fragment.guarded_nil
  | cons condition rest =>
    have hj : (Fragment.joined [.space, .and, .space] (condition :: rest)).Guarded := by
      refine Fragment.Guarded.joined rfl (fun rest hr => ?_) h
      simp [Token.isLiteral, hr]
    simp [Composition.restriction, Token.isLiteral, hj]

theorem Composition.compile_guarded {parameters : Parameters}
    (h : composition.compile options used parameters = .ok statement) :
    Fragment.Guarded statement := by
  obtain ⟨columns, hc, conditions, ho, rfl⟩ := Composition.compile_ok.mp h
  have hr := Composition.restriction_guarded (Composition.conditions_guarded ho)
  have ht : Fragment.Guarded ([.space, .fromTable, .space, .qualified used composition.table] ++
      Composition.restriction conditions) := by
    simp [Token.isLiteral, hr]
  have hs := (Composition.selectList_guarded hc).append ht (by simp [Token.isBreak])
  simpa [Token.isLiteral] using hs

end

theorem literals_read_back {options : StatementOptions} {schema : Option String}
    {overrides : Overrides} {composition : Composition} {dialect : Dialect}
    (hd : dialect ≠ .legacy)
    (h : composition.compose options schema overrides = .ok (used, before ++ token :: after))
    (ht : token = .string value ∨ token = .inline value) :
    Fragment.text dialect (before ++ token :: after) =
        Fragment.text dialect before ++ token.text dialect ++ Fragment.text dialect after ∧
      Sql.scanLiteral? (token.text dialect ++ Fragment.text dialect after).toList =
        some (value.toList, (Fragment.text dialect after).toList) := by
  have hg := Composition.compile_guarded (Composition.compose_ok.mp h).2.2
  have hl : token.isLiteral = true := by rcases ht with rfl | rfl <;> rfl
  have hq : token.text dialect = dialect.quoteString value := by rcases ht with rfl | rfl <;> rfl
  constructor
  · simp [String.append_assoc]
  · rw [hq, String.toList_append]
    exact Dialect.scanLiteral?_quoteString hd value ((hg.after hl).head?_text dialect)

/-- A text with quotes at both ends and inside, in front of another condition of its group. -/
def clocks : Composition where
  table := "cube"
  columns := .ofEntries [("spend", .raw "spend")]
  parameters :=
    { rowFilters := [.named "kind" (.group .or
        [.leaf ⟨"kind", "equal", .text "'o'clock'", none⟩,
          .leaf ⟨"size", "greater_than", .number (.int 9), none⟩])] }

def beforeClock : Fragment :=
  [.select, .space, .raw "spend", .space, .fromTable, .space, .qualified "acme" "cube", .space,
    .whereRows, .space, .openParen, .column "kind", .space, .comparison .equal, .space]

def afterClock : Fragment :=
  [.space, .or, .space, .column "size", .space, .comparison .greater, .space, .number (.int 9),
    .closeParen]

theorem literals_read_back_of_clocks :
    Dialect.postgres ≠ .legacy ∧
      clocks.compose {} (some "acme") {} =
        .ok ("acme", beforeClock ++ .string "'o'clock'" :: afterClock) ∧
      Sql.scanLiteral?
          (Token.text .postgres (.string "'o'clock'") ++ afterClock.text .postgres).toList =
        some ("'o'clock'".toList, (afterClock.text .postgres).toList) := by
  have hd : Dialect.postgres ≠ .legacy := nofun
  have h : clocks.compose {} (some "acme") {} =
      .ok ("acme", beforeClock ++ .string "'o'clock'" :: afterClock) := rfl
  exact ⟨hd, h, (literals_read_back hd h (.inl rfl)).2⟩

end DeclarativeSql
