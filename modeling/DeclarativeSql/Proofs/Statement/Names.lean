import DeclarativeSql.Proofs.Sql.Names
import DeclarativeSql.Proofs.Statement.Frame
import DeclarativeSql.Proofs.Statement.Literals

/-!
# Names in a statement

`names_read_back`: behind each `AS` of a statement stands the name of a cased column, and behind
its `FROM` the schema in use and the table. Each reads back as the identifiers that stand for
the name, and reading stops where the next token begins: what follows a name is a space, a comma
or the end. A dotted name stands for its parts, any other name for itself.
-/

namespace DeclarativeSql

namespace Token

/-- Tokens that a name follows. -/
def introducesName : Token → Bool
  | .asName | .fromTable => true
  | _ => false

/-- Tokens whose names the dialect quotes. -/
def isName : Token → Bool
  | .identifier _ | .qualified _ _ => true
  | _ => false

theorem introducesName_of_isName {token : Token} (h : token.isName = true) :
    token.introducesName = false := by
  cases token <;> first | rfl | cases h

/-- The identifiers that stand for the names of a token. -/
def identifiers : Token → List (List Char)
  | .identifier name => Sql.identifiers name.toList
  | .qualified schema table => Sql.identifiers schema.toList ++ Sql.identifiers table.toList
  | _ => []

end Token

/-- The name of a column, with the token that introduces it. -/
def Column.introduction? (name : String) : Column → Option (Token × Token)
  | .raw _ => none
  | .cased _ => some (.asName, .identifier name)

/-- The names of a statement in their order, each with the token that introduces it: those of the
cased columns, and then the schema and the table. -/
def Composition.introductions (composition : Composition) (schema : String) :
    List (Token × Token) :=
  (composition.columns.entries.filterMap fun entry => entry.2.introduction? entry.1) ++
    [(.fromTable, .qualified schema composition.table)]

namespace Fragment

/-- The tokens that introduce a name, each with what follows it. -/
def introduced : Fragment → List (Token × Fragment)
  | [] => []
  | token :: rest =>
    if token.introducesName then (token, rest) :: introduced rest else introduced rest

theorem introduced_of_pos (h : token.introducesName = true) (rest : Fragment) :
    introduced (token :: rest) = (token, rest) :: introduced rest :=
  if_pos h

theorem introduced_of_neg (h : token.introducesName = false) (rest : Fragment) :
    introduced (token :: rest) = introduced rest :=
  if_neg (by simp [h])

/-- A token is followed by a space and the name that it introduces, and the name reads back as
its identifiers. -/
def HoldsName (dialect : Dialect) (place : Token × Fragment) (introduction : Token × Token) :
    Prop :=
  place.1 = introduction.1 ∧ ∃ rest, place.2 = .space :: introduction.2 :: rest ∧
    Sql.scanNames? (text dialect (introduction.2 :: rest)).toList =
      some (introduction.2.identifiers, (text dialect rest).toList)

/-- A fragment with these names, each apart from what follows it. -/
inductive Introduces : Fragment → List (Token × Token) → Prop
  | nil : Introduces [] []
  | token : token.introducesName = false → Introduces rest introductions →
      Introduces (token :: rest) introductions
  | name : mark.introducesName = true → name.isName = true → rest.StartsApart →
      Introduces rest introductions →
      Introduces (mark :: .space :: name :: rest) ((mark, name) :: introductions)

theorem StartsApart.append {first second : Fragment} (hf : first.StartsApart)
    (hs : second.StartsApart) : (first ++ second).StartsApart := by
  cases first with
  | nil => exact hs
  | cons token first => exact startsApart_cons.mpr (startsApart_cons.mp hf)

namespace Introduces

variable {fragment first second : Fragment} {introductions others : List (Token × Token)}

theorem prepend (hf : ∀ token ∈ first, token.introducesName = false)
    (h : Introduces fragment introductions) : Introduces (first ++ fragment) introductions := by
  induction first with
  | nil => exact h
  | cons token first ih =>
    rw [List.forall_mem_cons] at hf
    exact .token hf.1 (ih hf.2)

theorem append (hf : Introduces first introductions) (hs : Introduces second others)
    (ha : second.StartsApart) : Introduces (first ++ second) (introductions ++ others) := by
  induction hf with
  | nil => exact hs
  | token ht _ ih => exact .token ht ih
  | name hm hn hr _ ih => exact .name hm hn (hr.append ha) ih

theorem of_forall (h : ∀ token ∈ fragment, token.introducesName = false) :
    Introduces fragment [] := by
  simpa using Introduces.nil.prepend h

end Introduces

end Fragment

-- ---------------------------------------------------------------------------
-- Texts of names
-- ---------------------------------------------------------------------------

theorem Dialect.quoteIdentifier_toList {dialect : Dialect} (hd : dialect ≠ .legacy)
    (name : String) : (dialect.quoteIdentifier name).toList = Sql.quoteIfNeeded name.toList := by
  cases dialect with
  | legacy => exact absurd rfl hd
  | postgres => exact String.toList_ofList
  | redshift => exact String.toList_ofList

theorem Token.qualified_toList {dialect : Dialect} (hd : dialect ≠ .legacy)
    (schema table : String) :
    ((Token.qualified schema table).text dialect).toList =
      Sql.qualified schema.toList table.toList := by
  simp [Token.text, Sql.qualified, Dialect.quoteIdentifier_toList hd]

theorem Fragment.StartsApart.stops {fragment : Fragment} (h : fragment.StartsApart)
    (dialect : Dialect) :
    Sql.Stops (fragment.text dialect).toList ∧ (fragment.text dialect).toList.head? ≠ some '.' := by
  have hb := h.head?_text_isBreak dialect
  refine ⟨fun c hc => ?_, fun hh => absurd (hb _ hh) (by decide)⟩
  rcases hb c hc with rfl | rfl | rfl <;> decide

/-- A name apart from what follows it reads back as its identifiers. -/
theorem Token.scanNames?_text {dialect : Dialect} (hd : dialect ≠ .legacy) {name : Token}
    (hn : name.isName = true) {rest : Fragment} (hr : rest.StartsApart) :
    Sql.scanNames? (Fragment.text dialect (name :: rest)).toList =
      some (name.identifiers, (rest.text dialect).toList) := by
  obtain ⟨hs, hh⟩ := hr.stops dialect
  rw [Fragment.text_cons, String.toList_append]
  cases name with
  | identifier name =>
    rw [Token.text, Dialect.quoteIdentifier_toList hd]
    exact Sql.scanNames?_quoteIfNeeded name.toList hs hh
  | qualified schema table =>
    rw [Token.qualified_toList hd]
    exact Sql.scanNames?_qualified schema.toList table.toList hs hh
  | _ => cases hn

theorem Fragment.Introduces.holdsNames {fragment : Fragment} {introductions : List (Token × Token)}
    (h : Introduces fragment introductions) {dialect : Dialect} (hd : dialect ≠ .legacy) :
    List.Forall₂ (HoldsName dialect) fragment.introduced introductions := by
  induction h with
  | nil => exact .nil
  | token ht _ ih => rwa [introduced_of_neg ht]
  | name hm hn hr _ ih =>
    rw [introduced_of_pos hm, introduced_of_neg rfl,
      introduced_of_neg (Token.introducesName_of_isName hn)]
    exact .cons ⟨rfl, _, rfl, Token.scanNames?_text hd hn hr⟩ ih

-- ---------------------------------------------------------------------------
-- Statements
-- ---------------------------------------------------------------------------

theorem Token.introducesName_of_isExpressionWord {token : Token}
    (h : token.isExpressionWord = true) : token.introducesName = false := by
  cases token <;> first | rfl | cases h

theorem Column.compile_introduces {column : Column}
    (h : column.compile limit name = .ok fragment) :
    Fragment.Introduces fragment (column.introduction? name).toList := by
  cases column with
  | raw sql =>
    cases h
    exact .token rfl .nil
  | cased clauses =>
    obtain ⟨expression, he, rfl⟩ := map_ok.mp h
    have hw : ∀ token ∈ expression, token.introducesName = false := fun token ht =>
      Token.introducesName_of_isExpressionWord
        (CaseClause.compileAll_isExpressionWord he token ht)
    exact .prepend hw (.token rfl (.name rfl rfl Fragment.startsApart_nil .nil))

theorem Columns.joined_introduces {entries : List (String × Column)} {columns : List Fragment}
    (h : List.Forall₂ (fun entry column => entry.2.compile limit entry.1 = .ok column)
      entries columns) :
    Fragment.Introduces (Fragment.joined [.comma, .space] columns)
      (entries.filterMap fun entry => entry.2.introduction? entry.1) := by
  rw [List.filterMap_eq_flatMap_toList]
  induction h with
  | nil => exact .nil
  | cons hc hr ih =>
    have hc := Column.compile_introduces hc
    rw [List.flatMap_cons]
    cases hr with
    | nil => simpa [Fragment.joined] using hc
    | cons hn hr =>
      rw [Fragment.joined, List.append_assoc]
      · have hs : ∀ token ∈ [Token.comma, .space], token.introducesName = false := by decide
        exact hc.append (ih.prepend hs) (Fragment.startsApart_cons.mpr rfl)
      · exact List.cons_ne_nil _ _

section
variable {options : StatementOptions} {composition : Composition}

theorem Composition.conditions_introducesName {parameters : Parameters}
    (h : Composition.conditions options parameters = .ok fragments) :
    ∀ fragment ∈ fragments, ∀ token ∈ fragment, token.introducesName = false := by
  refine Composition.conditions_induction ?_ ?_ ?_ h
  · simp [Fragment.since, Token.introducesName]
  · simp [Fragment.between, Token.introducesName]
  intro filter _ fragment hf token ht
  have hw := filter.predicate.compileAt_isPredicateWord 1 hf token ht
  exact Token.introducesName_of_isExpressionWord (Token.isExpressionWord_of_isPredicateWord hw)

theorem Composition.restriction_introducesName {conditions : List Fragment}
    (h : ∀ condition ∈ conditions, ∀ token ∈ condition, token.introducesName = false) :
    ∀ token ∈ Composition.restriction conditions, token.introducesName = false := by
  cases conditions with
  | nil => exact List.forall_mem_nil _
  | cons condition rest =>
    rw [Composition.restriction, List.forall_mem_append]
    · exact ⟨by decide, Fragment.forall_mem_joined (by decide) h⟩
    · exact List.cons_ne_nil condition rest

theorem Composition.restriction_startsApart (conditions : List Fragment) :
    (Composition.restriction conditions).StartsApart := by
  cases conditions with
  | nil => exact Fragment.startsApart_nil
  | cons condition rest => exact Fragment.startsApart_cons.mpr rfl

theorem Composition.compile_introduces {parameters : Parameters}
    (h : composition.compile options used parameters = .ok statement) :
    Fragment.Introduces statement (composition.introductions used) := by
  obtain ⟨columns, hc, conditions, ho, rfl⟩ := Composition.compile_ok.mp h
  obtain ⟨fragments, hf, rfl⟩ := Composition.selectList_ok.mp hc
  have hr := Composition.restriction_introducesName (Composition.conditions_introducesName ho)
  have ht : Fragment.Introduces ([.space, .fromTable, .space, .qualified used composition.table] ++
      Composition.restriction conditions) [(.fromTable, .qualified used composition.table)] :=
    .token rfl (.name rfl rfl (Composition.restriction_startsApart conditions) (.of_forall hr))
  have hs := (Columns.joined_introduces hf).append ht (Fragment.startsApart_cons.mpr rfl)
  rw [List.append_assoc, List.append_assoc]
  exact hs.prepend (by decide)

end

theorem names_read_back {options : StatementOptions} {schema : Option String}
    {overrides : Overrides} {composition : Composition} {dialect : Dialect}
    (hd : dialect ≠ .legacy)
    (h : composition.compose options schema overrides = .ok (used, statement)) :
    List.Forall₂ (Fragment.HoldsName dialect) (Fragment.introduced statement)
        (composition.introductions used) ∧
      ∀ schema table schema' table' : String,
        ((Token.qualified schema table).text dialect =
            (Token.qualified schema' table').text dialect ↔
          (Token.qualified schema table).identifiers =
            (Token.qualified schema' table').identifiers) ∧
        (¬ Sql.IsDotted schema.toList → ¬ Sql.IsDotted table.toList →
          (schema, table) ≠ (schema', table') →
          (Token.qualified schema table).text dialect ≠
            (Token.qualified schema' table').text dialect) := by
  have hs := Composition.compile_introduces (Composition.compose_ok.mp h).2.2
  refine ⟨hs.holdsNames hd, fun schema table schema' table' => ?_⟩
  have ht : (Token.qualified schema table).text dialect =
      (Token.qualified schema' table').text dialect ↔
        Sql.qualified schema.toList table.toList = Sql.qualified schema'.toList table'.toList := by
    rw [← String.toList_inj, Token.qualified_toList hd, Token.qualified_toList hd]
  refine ⟨ht.trans Sql.qualified_inj, fun hschema htable hn he => hn ?_⟩
  obtain ⟨hl, hr⟩ := (Sql.qualified_inj_of_not_isDotted hschema htable).mp (ht.mp he)
  rw [String.toList_inj.mp hl, String.toList_inj.mp hr]

/-- What is spent on rolls, zero where nothing is known of it. -/
def spentOnRolls : List CaseClause :=
  [.branch (.leaf ⟨"spend", "is_null", .null, none⟩) (.value (.number (.int 0))),
    .otherwise (.column "spend")]

def spentTokens : Fragment :=
  [.caseStart, .space, .caseWhen, .space, .column "spend", .space, .isNull, .space, .caseThen,
    .space, .number (.int 0), .space, .caseElse, .space, .column "spend", .space, .caseEnd, .space]

/-- A name with a quote, and one with a dot and a space. -/
def rolls : Composition where
  table := "cube"
  columns := .ofEntries
    [("12\" rolls", .cased spentOnRolls), ("size", .raw "size AS \"s\""),
      ("t.all rolls", .cased spentOnRolls)]

def rollsTokens : Fragment :=
  [.select, .space] ++ spentTokens ++
    [.asName, .space, .identifier "12\" rolls", .comma, .space, .raw "size AS \"s\"", .comma,
      .space] ++
    spentTokens ++ [.asName, .space, .identifier "t.all rolls", .space, .fromTable, .space,
      .qualified "acme-co" "cube"]

theorem names_read_back_of_rolls :
    Dialect.redshift ≠ .legacy ∧
      rolls.compose {} (some "acme-co") {} = .ok ("acme-co", rollsTokens) ∧
      List.Forall₂ (Fragment.HoldsName .redshift) rollsTokens.introduced
        [(.asName, .identifier "12\" rolls"), (.asName, .identifier "t.all rolls"),
          (.fromTable, .qualified "acme-co" "cube")] ∧
      (Token.identifier "12\" rolls").identifiers = ["12\" rolls".toList] ∧
      (Token.identifier "t.all rolls").identifiers = ["t".toList, "all rolls".toList] ∧
      (Token.qualified "acme-co" "cube").identifiers = ["acme-co".toList, "cube".toList] := by
  have hd : Dialect.redshift ≠ .legacy := nofun
  have h : rolls.compose {} (some "acme-co") {} = .ok ("acme-co", rollsTokens) := rfl
  exact ⟨hd, h, (names_read_back hd h).1, by decide, by decide, by decide⟩

/-- A name with two plain parts. -/
def dotted : Composition where
  table := "cube"
  columns := .ofEntries [("t.spend", .cased spentOnRolls)]

theorem dotted_names_stand_for_their_parts :
    (¬ ∀ (limit : Nat) (composition : Composition) (schema name : String)
        (before rest : Fragment),
      composition.problems limit = [] →
      composition.compose {} (some schema) {} =
        .ok (schema, before ++ .asName :: .space :: .identifier name :: rest) →
      Sql.scanNames? (Fragment.text .postgres (.identifier name :: rest)).toList =
        some ([name.toList], (Fragment.text .postgres rest).toList)) ∧
      (Token.qualified "acme.eu" "cube").text .postgres =
        (Token.qualified "acme" "eu.cube").text .postgres := by
  refine ⟨fun h => ?_, by decide⟩
  have hc : dotted.compose {} (some "acme") {} =
      .ok ("acme", [.select, .space] ++ spentTokens ++ .asName :: .space ::
        .identifier "t.spend" :: [.space, .fromTable, .space, .qualified "acme" "cube"]) := rfl
  have hr := h 64 dotted "acme" "t.spend" _ _ rfl hc
  have hd : Dialect.postgres ≠ .legacy := nofun
  have hn : (Token.identifier "t.spend").isName = true := rfl
  have ha : Fragment.StartsApart [.space, .fromTable, .space, .qualified "acme" "cube"] :=
    Fragment.startsApart_cons.mpr rfl
  -- The name reads as two identifiers, not as one.
  rw [Token.scanNames?_text hd hn ha] at hr
  exact absurd hr (by decide)

end DeclarativeSql
