import DeclarativeSql.Proofs.Sql.Quoting
import DeclarativeSql.Proofs.Statement.Binding

/-!
# Statements in different dialects

Dialects differ in the names and the literals of a statement, and Postgres and Redshift not at
all. `dialects_agree_on_plain_statements`: the legacy text is the Postgres text exactly when all
names are plain and no literal holds a quote. The names of a statement are those of its cased
columns, its schema and its table.
-/

namespace DeclarativeSql

-- ---------------------------------------------------------------------------
-- Names and literals
-- ---------------------------------------------------------------------------

/-- The names that the dialect writes. -/
def Token.names : Token → List String
  | .identifier name => [name]
  | .qualified schema name => [schema, name]
  | _ => []

def Token.literals : Token → List String
  | .string value | .inline value => [value]
  | _ => []

theorem Token.text_grows (token : Token) :
    Sql.Grows (token.text .legacy).toList (token.text .postgres).toList := by
  cases token with
  | identifier name => exact Dialect.quoteIdentifier_grows name
  | qualified schema name =>
    simp only [Token.text, String.toList_append]
    exact ((Dialect.quoteIdentifier_grows schema).append (.refl _)).append
      (Dialect.quoteIdentifier_grows name)
  | string value => exact Dialect.quoteString_grows value
  | inline value => exact Dialect.quoteString_grows value
  | _ => exact .refl _

theorem Token.text_eq_iff (token : Token) :
    token.text .legacy = token.text .postgres ↔
      (∀ name ∈ token.names, Sql.PlainName name) ∧
        ∀ value ∈ token.literals, '\'' ∉ value.toList := by
  cases token with
  | identifier name => simp [text, names, literals, Dialect.quoteIdentifier_eq_iff]
  | qualified schema name =>
    have hs := (Dialect.quoteIdentifier_grows schema).append (.refl ".".toList)
    rw [← String.toList_append, ← String.toList_append] at hs
    simp [text, names, literals, Sql.append_text_inj hs (Dialect.quoteIdentifier_grows name),
      Dialect.quoteIdentifier_eq_iff]
  | string value => simp [text, names, literals, Dialect.quoteString_eq_iff]
  | inline value => simp [text, names, literals, Dialect.quoteString_eq_iff]
  | _ => simp [text, names, literals, Dialect.nullText]

namespace Fragment

def names (fragment : Fragment) : List String :=
  fragment.flatMap Token.names

def literals (fragment : Fragment) : List String :=
  fragment.flatMap Token.literals

@[simp] theorem names_nil : names [] = [] := rfl

@[simp] theorem names_cons (token : Token) (rest : Fragment) :
    names (token :: rest) = token.names ++ rest.names := rfl

@[simp] theorem names_append (first second : Fragment) :
    names (first ++ second) = first.names ++ second.names :=
  List.flatMap_append

theorem text_grows (fragment : Fragment) :
    Sql.Grows (fragment.text .legacy).toList (fragment.text .postgres).toList := by
  induction fragment with
  | nil => exact .refl _
  | cons token rest ih =>
    simp only [text_cons, String.toList_append]
    exact token.text_grows.append ih

/-- The texts of two dialects are the same only token by token. -/
theorem text_eq_iff (fragment : Fragment) :
    fragment.text .legacy = fragment.text .postgres ↔
      (∀ name ∈ fragment.names, Sql.PlainName name) ∧
        ∀ value ∈ fragment.literals, '\'' ∉ value.toList := by
  induction fragment with
  | nil => simp [names, literals]
  | cons token rest ih =>
    rw [text_cons, text_cons, Sql.append_text_inj token.text_grows (text_grows rest),
      token.text_eq_iff, ih]
    simp only [names, literals, List.flatMap_cons, List.forall_mem_append]
    exact and_and_and_comm

theorem text_redshift (fragment : Fragment) :
    fragment.text .redshift = fragment.text .postgres := by
  induction fragment with
  | nil => rfl
  | cons token rest ih =>
    rw [text_cons, text_cons, ih]
    cases token <;> rfl

theorem bindAfter_redshift (count : Nat) (fragment : Fragment) :
    fragment.bindAfter .redshift count = fragment.bindAfter .postgres count := by
  rw [bindAfter_eq, bindAfter_eq, funext text_redshift]
  rfl

theorem names_joined {separator : Fragment} (hs : separator.names = [])
    (fragments : List Fragment) :
    (joined separator fragments).names = fragments.flatMap names := by
  induction fragments with
  | nil => rfl
  | cons fragment rest ih =>
    cases rest with
    | nil => simp [joined]
    | cons next rest => simp [joined, hs, ih]

end Fragment

-- ---------------------------------------------------------------------------
-- The names of a statement
-- ---------------------------------------------------------------------------

theorem Grammar.Comparison.names (h : Grammar.Comparison fragment) :
    Fragment.names fragment = [] := by
  cases h with
  | null ht => rcases ht with rfl | rfl <;> rfl
  | number => rfl
  | text => rfl
  | pattern ht => rcases ht with rfl | rfl <;> rfl

theorem Grammar.Result.names (h : Grammar.Result token) : token.names = [] := by
  cases h <;> rfl

theorem Predicate.grouped_names (connective : Connective) {members : List Fragment}
    (h : ∀ member ∈ members, member.names = []) : (grouped connective members).names = [] := by
  have hs : Fragment.names connective.separator = [] := by cases connective <;> rfl
  simpa [grouped, Fragment.enclosed, Token.names, Fragment.names_joined hs] using h

theorem Predicate.compile_names {p : Predicate} (h : p.compile limit = .ok fragment) :
    Fragment.names fragment = [] :=
  p.compileAt_induction (fun hc => (Condition.compile_derives hc).names) grouped_names 1 h

theorem CaseClause.compileBranches_names {clauses : List CaseClause}
    (h : compileBranches limit clauses = .ok fragment) : Fragment.names fragment = [] := by
  refine compileBranches_induction (P := fun fragment => fragment.names = []) rfl ?_ h
  intro condition first others outcome hf ho
  simp only [branchFragment, Fragment.names_append, Fragment.names_cons,
    Predicate.compile_names hf, outcome.token_derives.names, ho]
  rfl

/-- The names that a column brings into a statement. -/
def Column.names (name : String) : Column → List String
  | .raw _ => []
  | .cased _ => [name]

theorem Column.compile_names {column : Column} (h : column.compile limit name = .ok fragment) :
    Fragment.names fragment = column.names name := by
  cases column with
  | raw sql =>
    cases h
    rfl
  | cased clauses =>
    obtain ⟨branches, hb, rfl⟩ := Column.compile_cased_ok.mp h
    simp only [List.cons_append, Fragment.names_append, Fragment.names_cons,
      CaseClause.compileBranches_names hb, (CaseClause.otherwiseToken_derives clauses).names]
    rfl

theorem Columns.compile_names {entries : List (String × Column)} {columns : List Fragment}
    (h : List.Forall₂ (fun entry column => entry.2.compile limit entry.1 = .ok column)
      entries columns) :
    columns.flatMap Fragment.names = entries.flatMap fun entry => entry.2.names entry.1 := by
  induction h with
  | nil => rfl
  | cons he _ ih => rw [List.flatMap_cons, List.flatMap_cons, Column.compile_names he, ih]

section
variable {options : StatementOptions} {parameters : Parameters} {composition : Composition}

theorem Composition.selectList_names (h : composition.selectList options = .ok fragment) :
    fragment.names = composition.columns.entries.flatMap fun entry => entry.2.names entry.1 := by
  obtain ⟨columns, hc, rfl⟩ := Composition.selectList_ok.mp h
  rw [Fragment.names_joined rfl]
  exact Columns.compile_names hc

theorem Composition.conditions_names (h : conditions options parameters = .ok fragments) :
    ∀ fragment ∈ fragments, fragment.names = [] :=
  conditions_induction (fun _ => rfl) (fun _ _ => rfl) (fun _ _ _ => Predicate.compile_names) h

theorem Composition.restriction_names {conditions : List Fragment}
    (h : ∀ condition ∈ conditions, condition.names = []) : (restriction conditions).names = [] := by
  cases conditions with
  | nil => rfl
  | cons condition rest =>
    rw [restriction, Fragment.names_append, Fragment.names_joined rfl,
      List.flatMap_eq_nil_iff.mpr h]
    · rfl
    · simp

theorem Composition.compile_names
    (h : composition.compile options used parameters = .ok statement) :
    statement.names =
      (composition.columns.entries.flatMap fun entry => entry.2.names entry.1) ++
        [used, composition.table] := by
  obtain ⟨columns, hc, conditions, ho, rfl⟩ := Composition.compile_ok.mp h
  simp [Token.names, selectList_names hc, restriction_names (conditions_names ho)]

end

-- ---------------------------------------------------------------------------
-- Statements
-- ---------------------------------------------------------------------------

/-- The dialect has no part in which tokens a statement has. -/
theorem Composition.compose_dialect (options : StatementOptions) (dialect : Dialect)
    (schema : Option String) (overrides : Overrides) (composition : Composition) :
    composition.compose { options with dialect := dialect } schema overrides =
      composition.compose options schema overrides := rfl

theorem Composition.plain_names_iff {composition : Composition} :
    (∀ name ∈ (composition.columns.entries.flatMap fun entry => entry.2.names entry.1) ++
        [used, composition.table], Sql.PlainName name) ↔
      Sql.PlainName used ∧ Sql.PlainName composition.table ∧
        ∀ name clauses, (name, .cased clauses) ∈ composition.columns.entries →
          Sql.PlainName name := by
  rw [List.forall_mem_append]
  constructor
  · rintro ⟨hc, hn⟩
    refine ⟨hn _ List.mem_cons_self, hn _ (List.mem_cons_of_mem _ List.mem_cons_self), ?_⟩
    intro name clauses he
    exact hc name (List.mem_flatMap.mpr ⟨_, he, List.mem_cons_self⟩)
  · rintro ⟨hu, ht, hc⟩
    refine ⟨?_, List.forall_mem_cons.mpr ⟨hu, List.forall_mem_singleton.mpr ht⟩⟩
    intro name hm
    obtain ⟨⟨key, column⟩, he, hn⟩ := List.mem_flatMap.mp hm
    cases column with
    | raw sql => cases hn
    | cased clauses =>
      obtain rfl := List.mem_singleton.mp hn
      exact hc name clauses he

theorem dialects_agree_on_plain_statements {options : StatementOptions} {schema : Option String}
    {overrides : Overrides} {composition : Composition} (description : Option String)
    (h : composition.compose options schema overrides = .ok (used, statement)) :
    let query : Query := ⟨.composition composition, description⟩
    let text dialect := query.compose { options with dialect := dialect } schema overrides
    let bound dialect := query.composeBound { options with dialect := dialect } schema overrides
    (∀ dialect, text dialect = .ok (statement.text dialect)) ∧
      text .redshift = text .postgres ∧
      bound .redshift = bound .postgres ∧
      (text .legacy = text .postgres ↔
        (Sql.PlainName used ∧ Sql.PlainName composition.table ∧
          ∀ name clauses, (name, .cased clauses) ∈ composition.columns.entries →
            Sql.PlainName name) ∧
        ∀ value ∈ statement.literals, '\'' ∉ value.toList) := by
  intro query text bound
  have ht : ∀ dialect, text dialect = .ok (statement.text dialect) := by
    intro dialect
    simp only [text, query, Query.compose, Composition.compose_dialect, h]
    rfl
  have hb : ∀ dialect, bound dialect = .ok (statement.bind dialect) := by
    intro dialect
    simp only [bound, query, Query.composeBound, Composition.compose_dialect, h]
    rfl
  refine ⟨ht, ?_, ?_, ?_⟩
  · rw [ht, ht, Fragment.text_redshift]
  · rw [hb, hb, Fragment.bind, Fragment.bind, Fragment.bindAfter_redshift]
  · rw [ht, ht, Except.ok.injEq, Fragment.text_eq_iff,
      Composition.compile_names (Composition.compose_ok.mp h).2.2, Composition.plain_names_iff]

/-- Plain names, qualified ones among them, and a quote in the text that a pattern contains. -/
def hourKinds : Composition where
  table := "raw.hours$1"
  columns := .ofEntries
    [("kind_of", .cased
      [.branch (.leaf ⟨"name", "contains", .text "o'clock", none⟩) (.value (.text "full")),
        .otherwise (.column "\"other \"\"kind\"")])]

def hourStatement : Fragment :=
  [.select, .space, .caseStart, .space, .caseWhen, .space, .column "name", .space, .ilike, .space,
    .string "%o'clock%", .space, .caseThen, .space, .string "full", .space, .caseElse, .space,
    .column "\"other \"\"kind\"", .space, .caseEnd, .space, .asName, .space,
    .identifier "kind_of", .space, .fromTable, .space, .qualified "acme" "raw.hours$1"]

theorem dialects_differ_on_quoted_pattern :
    let query : Query := ⟨.composition hourKinds, none⟩
    hourKinds.compose {} (some "acme") {} = .ok ("acme", hourStatement) ∧
      query.compose { dialect := .redshift } (some "acme") {} =
        query.compose { dialect := .postgres } (some "acme") {} ∧
      query.compose { dialect := .legacy } (some "acme") {} ≠
        query.compose { dialect := .postgres } (some "acme") {} := by
  have h : hourKinds.compose {} (some "acme") {} = .ok ("acme", hourStatement) := rfl
  obtain ⟨-, hr, -, hl⟩ := dialects_agree_on_plain_statements none h
  refine ⟨h, hr, fun he => ?_⟩
  exact (hl.mp he).2 "%o'clock%" (by decide) (by decide)

end DeclarativeSql
