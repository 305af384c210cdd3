import DeclarativeSql.Proofs.Sql.Grammar
import DeclarativeSql.Proofs.Check.WellFormed
import DeclarativeSql.Proofs.Statement.Acceptance

/-!
# Accepted queries follow the grammar

`accepted_queries_derive_from_grammar`: what an accepted query composes to is a statement of the
grammar, with an item for each column and a branch for each clause that has a condition. Only
clauses without a condition make a case expression without branches, which is not SQL.
-/

namespace DeclarativeSql

-- ---------------------------------------------------------------------------
-- Predicates
-- ---------------------------------------------------------------------------

theorem Grammar.Separated.joined {Part : Fragment → Prop} (separator : Fragment)
    {parts : List Fragment} (hn : parts ≠ []) (h : ∀ part ∈ parts, Part part) :
    Separated separator Part (Fragment.joined separator parts) := by
  induction parts with
  | nil => exact absurd rfl hn
  | cons part rest ih =>
    rw [List.forall_mem_cons] at h
    cases rest with
    | nil => exact .last h.1
    | cons next rest => exact .more h.1 (ih (List.cons_ne_nil _ _) h.2)

theorem Predicate.grouped_derives (connective : Connective) {members : List Fragment}
    (hs : 2 ≤ members.length) (h : ∀ member ∈ members, Grammar.Predicate member) :
    Grammar.Predicate (grouped connective members) := by
  obtain ⟨first, second, rest, rfl⟩ : ∃ first second rest, members = first :: second :: rest := by
    match members, hs with
    | first :: second :: rest, _ => exact ⟨first, second, rest, rfl⟩
  rw [List.forall_mem_cons] at h
  have others := Grammar.Separated.joined connective.separator (List.cons_ne_nil second rest) h.2
  cases connective with
  | and => exact .conjunction h.1 others
  | or => exact .disjunction h.1 others

mutual
theorem Predicate.compileAt_derives (limit depth : Nat) {fragment : Fragment} :
    (p : Predicate) → (∀ members ∈ p.groups, 2 ≤ members.length) →
      p.compileAt limit depth = .ok fragment → Grammar.Predicate fragment
  | .leaf condition, _, h =>
    .leaf (Condition.compile_derives (Predicate.compileAt_leaf_ok.mp h).2)
  | .group connective children, hg, h => by
    obtain ⟨-, members, hm, rfl⟩ := Predicate.compileAt_group_ok.mp h
    rw [Predicate.groups, List.forall_mem_cons] at hg
    obtain ⟨hs, ha⟩ := Predicate.compileAllAt_derives limit (depth + 1) children hg.2 hm
    exact Predicate.grouped_derives connective (hs ▸ hg.1) ha
theorem Predicate.compileAllAt_derives (limit depth : Nat) {fragments : List Fragment} :
    (children : List Predicate) →
      (∀ members ∈ Predicate.allGroups children, 2 ≤ members.length) →
      Predicate.compileAllAt limit depth children = .ok fragments →
        fragments.length = children.length ∧
          ∀ fragment ∈ fragments, Grammar.Predicate fragment
  | [], _, h => by
    cases h
    exact ⟨rfl, List.forall_mem_nil _⟩
  | child :: rest, hg, h => by
    obtain ⟨first, hf, others, ho, rfl⟩ := Predicate.compileAllAt_cons_ok.mp h
    rw [Predicate.allGroups, List.forall_mem_append] at hg
    obtain ⟨hs, ha⟩ := Predicate.compileAllAt_derives limit depth rest hg.2 ho
    refine ⟨congrArg (· + 1) hs, List.forall_mem_cons.mpr ⟨?_, ha⟩⟩
    exact Predicate.compileAt_derives limit depth child hg.1 hf
end

theorem Predicate.Accepted.derives {p : Predicate} (hp : p.Accepted limit)
    (h : p.compile depth = .ok fragment) : Grammar.Predicate fragment :=
  p.compileAt_derives depth 1 hp.groups h

-- ---------------------------------------------------------------------------
-- Columns
-- ---------------------------------------------------------------------------

theorem CaseClause.compileBranches_derives {clauses : List CaseClause}
    (hc : ∀ clause ∈ clauses, clause.WellFormed limit)
    (h : compileBranches depth clauses = .ok fragment) :
    Grammar.Cases (clauses.countP isBranch) fragment := by
  induction clauses generalizing fragment with
  | nil =>
    cases h
    exact .none
  | cons clause rest ih =>
    rw [List.forall_mem_cons] at hc
    cases clause with
    | otherwise outcome => exact ih hc.2 h
    | branch condition outcome =>
      obtain ⟨first, hf, others, ho, rfl⟩ := compileBranches_branch_ok.mp h
      cases hc.1 with
      | branch hp _ =>
        have hp := (Predicate.accepted_iff_wellFormed limit condition).mpr hp
        rw [List.countP_cons_of_pos rfl]
        simpa [branchFragment] using
          Grammar.Cases.branch (hp.derives hf) outcome.token_derives (ih hc.2 ho)

theorem Column.compile_derives {column : Column} (hc : column.WellFormed limit)
    (h : column.compile depth name = .ok fragment) :
    Grammar.Item Grammar.ClauseBranches (name, column) fragment := by
  cases column with
  | raw sql =>
    cases h
    exact .raw
  | cased clauses =>
    obtain ⟨branches, hb, rfl⟩ := Column.compile_cased_ok.mp h
    cases hc with
    | cased _ hc =>
      simpa using Grammar.Item.cased (CaseClause.compileBranches_derives hc hb) rfl
        (CaseClause.otherwiseToken_derives clauses)

theorem Columns.joined_derives {entries : List (String × Column)} {columns : List Fragment}
    (hn : entries ≠ [])
    (h : List.Forall₂ (Grammar.Item Grammar.ClauseBranches) entries columns) :
    Grammar.Items Grammar.ClauseBranches entries (Fragment.joined [.comma, .space] columns) := by
  induction h with
  | nil => exact absurd rfl hn
  | cons hi hr ih =>
    cases hr with
    | nil => exact .last hi
    | cons => exact .more hi (ih (List.cons_ne_nil _ _))

-- ---------------------------------------------------------------------------
-- Statements
-- ---------------------------------------------------------------------------

section
variable {options : StatementOptions} {parameters : Parameters} {composition : Composition}

theorem Composition.conditions_derives
    (ha : ∀ filter ∈ parameters.rowFilters, filter.Accepted limit)
    (h : conditions options parameters = .ok fragments) :
    ∀ fragment ∈ fragments, Grammar.Condition fragment :=
  conditions_induction (fun _ => .since) (fun _ _ => .between)
    (fun filter hm _ hf => .predicate ((ha filter hm).predicate.derives hf)) h

theorem Composition.restriction_derives
    (h : ∀ fragment ∈ fragments, Grammar.Condition fragment) :
    Grammar.Restriction (restriction fragments) := by
  cases fragments with
  | nil => exact .nothing
  | cons first rest => exact .rows (.joined _ (List.cons_ne_nil _ _) h)

theorem Composition.compile_derives {used : String} (hc : composition.problems limit = [])
    (ha : ∀ filter ∈ parameters.rowFilters, filter.Accepted limit)
    (h : composition.compile options used parameters = .ok statement) :
    Grammar.Statement Grammar.ClauseBranches used composition.table
      composition.columns.entries statement := by
  obtain ⟨_, hs, conditions, hconditions, rfl⟩ := compile_ok.mp h
  obtain ⟨columns, hcolumns, rfl⟩ := selectList_ok.mp hs
  have wellFormed := ((problems_eq_nil limit composition).mp hc).columns
  refine .select (Columns.joined_derives ?_ ?_)
    (restriction_derives (conditions_derives ha hconditions))
  · exact List.ne_nil_of_length_pos wellFormed.nonempty
  · have hentries := (List.forall₂_and_left _ _).mpr ⟨wellFormed.entries, hcolumns⟩
    exact hentries.imp fun _ _ ⟨⟨_, hw⟩, hcompile⟩ => Column.compile_derives hw hcompile

end

/-- Every case expression has a clause with a condition. -/
def Composition.HasBranches (composition : Composition) : Prop :=
  ∀ entry ∈ composition.columns.entries, ∀ clauses, entry.2 = .cased clauses →
    ∃ clause ∈ clauses, clause.isBranch = true

section
variable {Branches Others : List CaseClause → Nat → Prop}

theorem Grammar.Item.imp (h : Item Branches entry fragment)
    (himp : ∀ clauses, entry.2 = .cased clauses → ∀ n, Branches clauses n → Others clauses n) :
    Item Others entry fragment := by
  cases h with
  | raw => exact .raw
  | cased hc hb hr => exact .cased hc (himp _ rfl _ hb) hr

theorem Grammar.Statement.imp (h : Statement Branches schema table entries statement)
    (himp : ∀ entry ∈ entries, ∀ clauses, entry.2 = .cased clauses →
      ∀ n, Branches clauses n → Others clauses n) :
    Statement Others schema table entries statement := by
  obtain ⟨hitems, hrestriction⟩ := h
  refine .select ?_ hrestriction
  induction hitems with
  | last hi => exact .last (hi.imp (himp _ (List.mem_singleton_self _)))
  | more hi _ ih =>
    rw [List.forall_mem_cons] at himp
    exact .more (hi.imp himp.1) (ih himp.2)

end

theorem accepted_queries_derive_from_grammar {text : String} {query : Query}
    {composition : Composition} {overrides : Overrides} {schema : String}
    (hq : Query.ofText limit text = .ok query) (hc : query.source = .composition composition)
    (ho : overrides.problems limit = []) (hs : schema ≠ "") (options : StatementOptions) :
    let composed :=
      composition.compose { options with maxDepth := limit } (some schema) overrides
    ((overrides.apply composition.parameters).HasDates options.zone →
      ∃ statement, composed = .ok (schema, statement)) ∧
    ∀ used statement, composed = .ok (used, statement) →
      used = schema ∧
      Grammar.Statement Grammar.ClauseBranches schema composition.table
        composition.columns.entries statement ∧
      (composition.HasBranches →
        Grammar.Statement Grammar.SqlBranches schema composition.table
          composition.columns.entries statement) := by
  intro composed
  have hp : composition.problems limit = [] := by
    simpa only [hc, Source.problems] using Query.ofText_accepted hq
  have hu := composition.schemaFor?_some hs
  constructor
  · intro hd
    obtain ⟨statement, h⟩ : ∃ statement, composition.compile { options with maxDepth := limit }
        schema (overrides.apply composition.parameters) = .ok statement :=
      Composition.compile_accepted hp ho hd
    exact ⟨statement, Composition.compose_ok.mpr ⟨hu, Composition.columns_nonempty hp, h⟩⟩
  · intro used statement h
    obtain ⟨hused, -, hcompile⟩ := Composition.compose_ok.mp h
    obtain rfl : schema = used := Option.some.inj (hu.symm.trans hused)
    have ha := RowFilter.merge_accepted ((Overrides.problems_eq_nil limit overrides).mp ho).2
      (Composition.rowFilters_accepted hp)
    have derives := Composition.compile_derives hp ha hcompile
    refine ⟨rfl, derives, fun hb => derives.imp fun entry he clauses hclauses n hn => ?_⟩
    obtain ⟨clause, hm, hbranch⟩ := hb entry he clauses hclauses
    rw [hn]
    exact List.countP_pos_iff.mpr ⟨clause, hm, hbranch⟩

def kindText : String :=
  "\x7b\"composition\":\x7b\"table\":\"cube\"," ++
    "\"columns\":\x7b\"spend\":\x7b\"sql\":\"spend\"\x7d,\"kind\":\x7b\"cases\":[" ++
    "\x7b\"when\":\x7b\"column\":\"paid\",\"operator\":\"is_null\"\x7d," ++
    "\"then\":\x7b\"value\":\"free\"\x7d\x7d," ++
    "\x7b\"default\":\x7b\"column\":\"kind\"\x7d\x7d]\x7d\x7d\x7d\x7d"

def kinds : Composition where
  table := "cube"
  columns := .ofEntries
    [("spend", .raw "spend"),
      ("kind", .cased
        [.branch (.leaf ⟨"paid", "is_null", .null, none⟩) (.value (.text "free")),
          .otherwise (.column "kind")])]

theorem ofText_kindText : Query.ofText 2 kindText = .ok (.composed kinds) := by
  decide +kernel

theorem accepted_queries_derive_from_grammar_kinds :
    Query.ofText 2 kindText = .ok (.composed kinds) ∧ paidOrNamed.problems 2 = [] ∧
      "acme" ≠ "" ∧ (paidOrNamed.apply kinds.parameters).HasDates .local ∧ kinds.HasBranches ∧
      ∃ statement,
        kinds.compose { maxDepth := 2 } (some "acme") paidOrNamed = .ok ("acme", statement) ∧
        Grammar.Statement Grammar.SqlBranches "acme" kinds.table kinds.columns.entries
          statement := by
  have hd : (paidOrNamed.apply kinds.parameters).HasDates .local := nofun
  have hb : kinds.HasBranches := by
    refine List.forall_mem_cons.mpr ⟨nofun, List.forall_mem_singleton.mpr ?_⟩
    rintro _ ⟨⟩
    exact ⟨_, List.mem_cons_self, rfl⟩
  obtain ⟨hcomposes, hderives⟩ := accepted_queries_derive_from_grammar ofText_kindText rfl
    (show paidOrNamed.problems 2 = [] from rfl) (show "acme" ≠ "" by decide) {}
  obtain ⟨statement, h⟩ := hcomposes hd
  obtain ⟨-, -, hsql⟩ := hderives _ _ h
  exact ⟨ofText_kindText, rfl, by decide, hd, hb, statement, h, hsql hb⟩

/-- Two clauses, neither with a condition. -/
def defaultsText : String :=
  "\x7b\"composition\":\x7b\"table\":\"cube\",\"columns\":\x7b\"kind\":\x7b\"cases\":" ++
    "[\x7b\"default\":\x7b\"value\":\"a\"\x7d\x7d," ++
    "\x7b\"default\":\x7b\"value\":\"b\"\x7d\x7d]\x7d\x7d\x7d\x7d"

def defaults : Composition where
  table := "cube"
  columns := .ofEntries
    [("kind", .cased [.otherwise (.value (.text "a")), .otherwise (.value (.text "b"))])]

theorem ofText_defaultsText : Query.ofText 64 defaultsText = .ok (.composed defaults) := by
  decide +kernel

/-- In the grammar of SQL a branch follows at once when a case expression starts. -/
theorem Grammar.Statement.starts_branch
    (h : Statement SqlBranches schema table [(name, .cased clauses)] statement) :
    ∃ rest, statement = .select :: .space :: .caseStart :: .space :: .caseWhen :: rest := by
  obtain ⟨hitems, -⟩ := h
  cases hitems with
  | more _ hn => cases hn
  | last hi =>
    cases hi with
    | cased hc hn _ =>
      cases hc with
      | none => cases hn
      | branch => exact ⟨_, rfl⟩

theorem accepted_query_without_branches :
    ¬ ∀ (limit : Nat) (text : String) (query : Query) (composition : Composition)
        (overrides : Overrides) (schema : String) (options : StatementOptions),
      Query.ofText limit text = .ok query → query.source = .composition composition →
      overrides.problems limit = [] → schema ≠ "" →
      ∃ statement,
        composition.compose { options with maxDepth := limit } (some schema) overrides =
          .ok (schema, statement) ∧
        Grammar.Statement Grammar.SqlBranches schema composition.table
          composition.columns.entries statement := by
  intro h
  obtain ⟨statement, hc, hs⟩ :=
    h 64 defaultsText _ _ {} "acme" {} ofText_defaultsText rfl rfl (by decide)
  obtain ⟨rest, rfl⟩ := hs.starts_branch
  -- The statement has its `ELSE` where the branch would start.
  cases hc

end DeclarativeSql
