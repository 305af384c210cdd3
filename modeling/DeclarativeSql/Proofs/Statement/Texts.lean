import DeclarativeSql.Proofs.Query.Texts
import DeclarativeSql.Proofs.Statement.Compiled
import DeclarativeSql.Statement.Compose

/-!
# Texts stay out of bound statements

`bound_statements_ignore_texts`: of two inputs that differ in nothing but their texts either
both fail alike or both compose, to the same SQL and to as many parameters.

Compiling and emptying texts do not commute, as a pattern puts its wildcards around the text.
So both sides are compared after the string literals of the tokens are emptied too, and binding
shows no more of a token than that.
-/

namespace DeclarativeSql

def Token.withoutText : Token → Token
  | .string _ => .string ""
  | token => token

def Fragment.withoutTexts (fragment : Fragment) : Fragment :=
  fragment.map Token.withoutText

@[simp] theorem Fragment.withoutTexts_nil : Fragment.withoutTexts [] = [] := rfl

@[simp] theorem Fragment.withoutTexts_cons (token : Token) (rest : Fragment) :
    Fragment.withoutTexts (token :: rest) = token.withoutText :: Fragment.withoutTexts rest := rfl

@[simp] theorem Fragment.withoutTexts_append (first second : Fragment) :
    Fragment.withoutTexts (first ++ second) = first.withoutTexts ++ second.withoutTexts :=
  List.map_append

-- ---------------------------------------------------------------------------
-- Binding
-- ---------------------------------------------------------------------------

theorem Fragment.sql_bindAfter_withoutTexts (dialect : Dialect) (count : Nat)
    (fragment : Fragment) :
    (Fragment.bindAfter dialect count fragment.withoutTexts).sql =
      (Fragment.bindAfter dialect count fragment).sql := by
  induction fragment generalizing count with
  | nil => rfl
  | cons token rest ih =>
    cases token <;>
      simp only [Fragment.withoutTexts_cons, Token.withoutText, Fragment.bindAfter, ih]

theorem Fragment.parameters_bindAfter_withoutTexts (dialect : Dialect) (count : Nat)
    (fragment : Fragment) :
    (Fragment.bindAfter dialect count fragment.withoutTexts).parameters.length =
      (Fragment.bindAfter dialect count fragment).parameters.length := by
  induction fragment generalizing count with
  | nil => rfl
  | cons token rest ih =>
    cases token <;>
      simp only [Fragment.withoutTexts_cons, Token.withoutText, Fragment.bindAfter,
        List.length_cons, ih]

/-- All that two bound statements have to share. -/
def BoundSql.shape (bound : BoundSql) : String × Nat :=
  (bound.sql, bound.parameters.length)

theorem Fragment.shape_bind {first second : Fragment} (dialect : Dialect)
    (h : first.withoutTexts = second.withoutTexts) :
    (first.bind dialect).shape = (second.bind dialect).shape := by
  have hs := congrArg (fun fragment => (Fragment.bindAfter dialect 0 fragment).sql) h
  have hp := congrArg (fun fragment => (Fragment.bindAfter dialect 0 fragment).parameters.length) h
  simp only [Fragment.sql_bindAfter_withoutTexts] at hs
  simp only [Fragment.parameters_bindAfter_withoutTexts] at hp
  exact Prod.ext hs hp

-- ---------------------------------------------------------------------------
-- Conditions and predicates
-- ---------------------------------------------------------------------------

theorem Fragment.withoutTexts_joined {separator : Fragment}
    (h : separator.withoutTexts = separator) (fragments : List Fragment) :
    (Fragment.joined separator fragments).withoutTexts =
      Fragment.joined separator (fragments.map Fragment.withoutTexts) := by
  induction fragments with
  | nil => rfl
  | cons fragment rest ih =>
    cases rest with
    | nil => rfl
    | cons other rest =>
      simp only [Fragment.joined, Fragment.withoutTexts_append, List.map_cons] at ih ⊢
      rw [ih, h]

theorem Predicate.withoutTexts_grouped (connective : Connective) (members : List Fragment) :
    (Predicate.grouped connective members).withoutTexts =
      Predicate.grouped connective (members.map Fragment.withoutTexts) := by
  have h : connective.separator.withoutTexts = connective.separator := by cases connective <;> rfl
  simp only [Predicate.grouped, Fragment.enclosed, Fragment.withoutTexts_cons,
    Fragment.withoutTexts_append, Fragment.withoutTexts_joined h]
  rfl

theorem Value.literal_withoutTexts (literal : Value) :
    literal.withoutTexts.literal.withoutText = literal.literal.withoutText := by
  cases literal <;> rfl

theorem Operator.comparand_withoutTexts (operator : Operator) (literal : Value)
    (caseSensitive : Bool) :
    Fragment.withoutTexts (operator.comparand literal.withoutTexts caseSensitive) =
      Fragment.withoutTexts (operator.comparand literal caseSensitive) := by
  unfold Operator.comparand
  split
  · simp only [Fragment.withoutTexts_cons, literal.literal_withoutTexts]
  · rfl

theorem Condition.compile_alike (condition : Condition) :
    Alike Fragment.withoutTexts condition.withoutTexts.compile condition.compile := by
  simp only [Condition.compile, Condition.withoutTexts]
  cases Operator.ofName? condition.operator with
  | none => exact .error _
  | some operator =>
    simp only [Operator.compile, Value.isNull_withoutTexts]
    split
    · exact .ok rfl
    · split
      · exact .error _
      · refine .ok ?_
        rw [Fragment.withoutTexts_cons, Fragment.withoutTexts_cons, Fragment.withoutTexts_cons,
          Fragment.withoutTexts_cons, operator.comparand_withoutTexts condition.value]
        rfl

mutual
theorem Predicate.compileAt_alike (limit depth : Nat) : (p : Predicate) →
    Alike Fragment.withoutTexts (p.withoutTexts.compileAt limit depth) (p.compileAt limit depth)
  | .leaf condition => by
    simp only [Predicate.withoutTexts, Predicate.compileAt]
    split
    · exact .error _
    · exact condition.compile_alike
  | .group connective children => by
    simp only [Predicate.withoutTexts, Predicate.compileAt]
    split
    · exact .error _
    · refine Alike.map ?_ (Predicate.compileAllAt_alike limit (depth + 1) children)
      intro members others h
      rw [Predicate.withoutTexts_grouped, Predicate.withoutTexts_grouped, h]
theorem Predicate.compileAllAt_alike (limit depth : Nat) : (children : List Predicate) →
    Alike (List.map Fragment.withoutTexts)
      (Predicate.compileAllAt limit depth (Predicate.allWithoutTexts children))
      (Predicate.compileAllAt limit depth children)
  | [] => .ok rfl
  | child :: rest => by
    simp only [Predicate.allWithoutTexts, Predicate.compileAllAt]
    refine Alike.both ?_ (Predicate.compileAt_alike limit depth child)
      (Predicate.compileAllAt_alike limit depth rest)
    intro first first' others others' hf ho
    rw [List.map_cons, List.map_cons, hf, ho]
end

theorem Predicate.compile_alike (limit : Nat) (p : Predicate) :
    Alike Fragment.withoutTexts (p.withoutTexts.compile limit) (p.compile limit) :=
  p.compileAt_alike limit 1

-- ---------------------------------------------------------------------------
-- Columns
-- ---------------------------------------------------------------------------

theorem Outcome.token_withoutTexts (outcome : Outcome) :
    outcome.withoutTexts.token.withoutText = outcome.token.withoutText := by
  cases outcome with
  | value literal => exact literal.literal_withoutTexts
  | column name => rfl

theorem CaseClause.compileBranches_alike (limit : Nat) (clauses : List CaseClause) :
    Alike Fragment.withoutTexts
      (CaseClause.compileBranches limit (clauses.map CaseClause.withoutTexts))
      (CaseClause.compileBranches limit clauses) := by
  induction clauses with
  | nil => exact .ok rfl
  | cons clause rest ih =>
    cases clause with
    | otherwise outcome => exact ih
    | branch condition outcome =>
      refine Alike.both ?_ (condition.compile_alike limit) ih
      intro first first' others others' hf ho
      simp only [CaseClause.branchFragment, Fragment.withoutTexts_append,
        Fragment.withoutTexts_cons, hf, ho, outcome.token_withoutTexts]

theorem CaseClause.lastOtherwise?_withoutTexts (clauses : List CaseClause) :
    CaseClause.lastOtherwise? (clauses.map CaseClause.withoutTexts) =
      (CaseClause.lastOtherwise? clauses).map Outcome.withoutTexts := by
  have h (clause : CaseClause) :
      clause.withoutTexts.otherwise? = clause.otherwise?.map Outcome.withoutTexts := by
    cases clause <;> rfl
  rw [CaseClause.lastOtherwise?, CaseClause.lastOtherwise?, ← List.getLast?_map,
    List.filterMap_map, List.map_filterMap]
  exact congrArg (fun f => (clauses.filterMap f).getLast?) (funext h)

theorem CaseClause.otherwiseToken_withoutTexts (clauses : List CaseClause) :
    (CaseClause.otherwiseToken (clauses.map CaseClause.withoutTexts)).withoutText =
      (CaseClause.otherwiseToken clauses).withoutText := by
  rw [CaseClause.otherwiseToken, CaseClause.otherwiseToken,
    CaseClause.lastOtherwise?_withoutTexts]
  cases CaseClause.lastOtherwise? clauses with
  | none => rfl
  | some outcome => exact outcome.token_withoutTexts

theorem CaseClause.compileAll_alike (limit : Nat) (clauses : List CaseClause) :
    Alike Fragment.withoutTexts
      (CaseClause.compileAll limit (clauses.map CaseClause.withoutTexts))
      (CaseClause.compileAll limit clauses) := by
  refine Alike.map ?_ (CaseClause.compileBranches_alike limit clauses)
  intro branches branches' h
  simp only [List.cons_append, Fragment.withoutTexts_append, Fragment.withoutTexts_cons, h,
    CaseClause.otherwiseToken_withoutTexts]

theorem Column.compile_alike (limit : Nat) (name : String) (column : Column) :
    Alike Fragment.withoutTexts (column.withoutTexts.compile limit name)
      (column.compile limit name) := by
  cases column with
  | raw sql => exact .ok rfl
  | cased clauses =>
    refine Alike.map ?_ (CaseClause.compileAll_alike limit clauses)
    intro cases cases' h
    rw [Fragment.withoutTexts_append, Fragment.withoutTexts_append, h]

-- ---------------------------------------------------------------------------
-- Statements
-- ---------------------------------------------------------------------------

theorem Composition.selectList_alike (options : StatementOptions) (composition : Composition) :
    Alike Fragment.withoutTexts (composition.withoutTexts.selectList options)
      (composition.selectList options) := by
  have h (entry : String × Column) :
      Alike Fragment.withoutTexts
        ((Columns.entryWithoutTexts entry).2.compile options.maxDepth entry.1)
        (entry.2.compile options.maxDepth entry.1) :=
    entry.2.compile_alike options.maxDepth entry.1
  refine Alike.map ?_ (Alike.mapM h composition.columns.entries)
  intro columns columns' hc
  rw [Fragment.withoutTexts_joined rfl, Fragment.withoutTexts_joined rfl, hc]

theorem Composition.conditions_alike (options : StatementOptions) (parameters : Parameters) :
    Alike (List.map Fragment.withoutTexts)
      (Composition.conditions options parameters.withoutTexts)
      (Composition.conditions options parameters) := by
  have h (filter : RowFilter) :
      Alike Fragment.withoutTexts (filter.withoutTexts.predicate.compile options.maxDepth)
        (filter.predicate.compile options.maxDepth) :=
    filter.predicate.compile_alike options.maxDepth
  -- intervals hold no texts
  have hd : Alike (List.map Fragment.withoutTexts)
      (parameters.withoutTexts.interval.toList.mapM (Interval.compile options))
      (parameters.interval.toList.mapM (Interval.compile options)) :=
    .refl _ _
  refine Alike.both ?_ hd ((Alike.mapM h parameters.rowFilters).returning ComposeError.compile)
  intro dates dates' filters filters' hd hf
  rw [List.map_append, List.map_append, hd, hf]

theorem Composition.withoutTexts_restriction (conditions : List Fragment) :
    (Composition.restriction conditions).withoutTexts =
      Composition.restriction (conditions.map Fragment.withoutTexts) := by
  cases conditions with
  | nil => rfl
  | cons condition rest =>
    have hj : (Fragment.joined [.space, .and, .space] (condition :: rest)).withoutTexts =
        Fragment.joined [.space, .and, .space] ((condition :: rest).map Fragment.withoutTexts) :=
      Fragment.withoutTexts_joined rfl _
    simp only [Composition.restriction, Fragment.withoutTexts_append, hj]
    rfl

theorem Composition.compile_alike (options : StatementOptions) (schema : String)
    (parameters : Parameters) (composition : Composition) :
    Alike Fragment.withoutTexts
      (composition.withoutTexts.compile options schema parameters.withoutTexts)
      (composition.compile options schema parameters) := by
  refine Alike.both ?_ ((composition.selectList_alike options).returning ComposeError.compile)
    (Composition.conditions_alike options parameters)
  intro columns columns' conditions conditions' hc hw
  simp only [Fragment.withoutTexts_append, Composition.withoutTexts_restriction, hc, hw]
  rfl

theorem Composition.compose_alike (options : StatementOptions) (schema : Option String)
    (overrides : Overrides) (composition : Composition) :
    Alike (fun result : String × Fragment => result.2.withoutTexts)
      (composition.withoutTexts.compose options schema overrides.withoutTexts)
      (composition.compose options schema overrides) := by
  have hs : composition.withoutTexts.schemaFor? schema = composition.schemaFor? schema := rfl
  have he : composition.withoutTexts.columns.isEmpty = composition.columns.isEmpty :=
    composition.columns.isEmpty_withoutTexts
  have hp : overrides.withoutTexts.apply composition.withoutTexts.parameters =
      (overrides.apply composition.parameters).withoutTexts :=
    overrides.apply_withoutTexts composition.parameters
  simp only [Composition.compose, hs, he, hp]
  cases composition.schemaFor? schema with
  | none => exact .error _
  | some used =>
    cases composition.columns.isEmpty with
    | true => exact .error _
    | false =>
      have hc := composition.compile_alike options used (overrides.apply composition.parameters)
      simp only [Bool.false_eq_true, if_false]
      generalize composition.withoutTexts.compile options used
        (overrides.apply composition.parameters).withoutTexts = first at hc ⊢
      generalize composition.compile options used (overrides.apply composition.parameters) =
        second at hc ⊢
      cases hc with
      | ok h => exact .ok h
      | error fault => exact .error _

theorem Query.composeBound_alike (options : StatementOptions) (schema : Option String)
    (overrides : Overrides) (query : Query) :
    Alike BoundSql.shape
      (query.withoutTexts.composeBound options schema overrides.withoutTexts)
      (query.composeBound options schema overrides) := by
  obtain ⟨source, description⟩ := query
  cases source with
  | raw sql => exact .ok rfl
  | composition composition =>
    refine Alike.map ?_ (composition.compose_alike options schema overrides)
    intro result result' h
    exact Fragment.shape_bind options.dialect h

theorem bound_statements_ignore_texts (options : StatementOptions) (schema : Option String)
    {first second : Query} {request other : Overrides}
    (hq : first.withoutTexts = second.withoutTexts)
    (ho : request.withoutTexts = other.withoutTexts) :
    Alike (fun bound => (bound.sql, bound.parameters.length))
      (first.composeBound options schema request) (second.composeBound options schema other) := by
  have hf := (first.composeBound_alike options schema request).symm
  rw [hq, ho] at hf
  exact hf.trans (second.composeBound_alike options schema other)

/-- A text in a pattern, in two outcomes, and in a filter that a request replaces. -/
def campaignsLike (text : String) : Query :=
  .composed
    { table := "cube"
      columns := .ofEntries [("kind", .cased
        [.branch (.leaf ⟨"campaign", "contains", .text text, none⟩) (.value (.text text)),
          .otherwise (.value (.text text))])]
      parameters := { rowFilters := [.named "kind" (.leaf ⟨"kind", "equal", .text text, none⟩)] } }

def kindOf (text : String) : Overrides where
  rowFilters := some [.named "kind" (.leaf ⟨"kind", "starts_with", .text text, some ⟨true⟩⟩)]

theorem bound_statements_ignore_texts_of_campaigns :
    (campaignsLike "ios").withoutTexts = (campaignsLike "o'clock $1").withoutTexts ∧
      (kindOf "paid").withoutTexts = (kindOf "").withoutTexts ∧
      Alike (fun bound => (bound.sql, bound.parameters.length))
        ((campaignsLike "ios").composeBound {} (some "acme") (kindOf "paid"))
        ((campaignsLike "o'clock $1").composeBound {} (some "acme") (kindOf "")) ∧
      (campaignsLike "o'clock $1").composeBound {} (some "acme") (kindOf "") =
        .ok ⟨"SELECT CASE WHEN campaign ilike $1 THEN $2 ELSE $3 END AS kind " ++
          "FROM acme.cube WHERE kind like $4",
          ["%o'clock $1%", "o'clock $1", "o'clock $1", "%"]⟩ :=
  ⟨rfl, rfl, bound_statements_ignore_texts {} (some "acme") rfl rfl, by decide +kernel⟩

end DeclarativeSql
