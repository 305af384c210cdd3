import DeclarativeSql.Proofs.Statement.Frame

/-!
# What the restriction of a statement means

`restriction_means_filters_in_force`: read as SQL reads it, the part of a statement behind its
table is the conjunction of the bounds of the interval in force and of the row filters in
force. Groups stand in parentheses and conditions do not, so the text has one reading. That
its value is the one of the filters holds for two truth values as for three.
-/

namespace DeclarativeSql

-- ---------------------------------------------------------------------------
-- Reading what stands behind the table
-- ---------------------------------------------------------------------------

/-- The words behind the table, read as the condition on the rows. -/
inductive Restricts : Fragment → Option Formula → Prop
  | nothing : Restricts [] none
  | rows : Reads words formula → Restricts (.whereRows :: words) (some formula)

theorem Restricts.unique (h : Restricts words first) (h' : Restricts words second) :
    first = second := by
  cases h with
  | nothing =>
    cases h' with
    | nothing => rfl
  | rows h =>
    cases h' with
    | rows h' => rw [h.unique h']

/-- All rows have the value `⊤` where nothing restricts them. -/
def rowsValue [Lattice α] [BoundedOrder α] (truth : Fragment → α) : Option Formula → α
  | none => ⊤
  | some formula => formula.value truth

-- ---------------------------------------------------------------------------
-- Rows of operands
-- ---------------------------------------------------------------------------

theorem Conjuncts.append (h : Conjuncts words formulas) (hw : word.isConjunction = true)
    (h' : Conjuncts rest others) : Conjuncts (words ++ word :: rest) (formulas ++ others) := by
  cases h with
  | last h => exact .more h hw h'
  | more h hw' hm =>
    rw [List.append_assoc]
    exact .more h hw' (hm.append hw h')

theorem Fragment.words_joined_cons (connective : Connective) (fragment next : Fragment)
    (rest : List Fragment) :
    (Fragment.joined connective.separator (fragment :: next :: rest)).words =
      fragment.words ++ connective.token ::
        (Fragment.joined connective.separator (next :: rest)).words := by
  have hs : Fragment.words connective.separator = [connective.token] := by
    cases connective <;> rfl
  rw [Fragment.joined, Fragment.words_append, Fragment.words_append, hs, List.append_assoc]
  · rfl
  · exact List.cons_ne_nil next rest

/-- Each fragment is read as the operand beside it. -/
abbrev Operands (fragments : List Fragment) (formulas : List Formula) : Prop :=
  List.Forall₂ (fun fragment formula => Operand fragment.words formula) fragments formulas

/-- Each fragment is read as the conjunction beside it. -/
abbrev Conjunctions (fragments : List Fragment) (conjunctions : List (List Formula)) : Prop :=
  List.Forall₂ (fun fragment formulas => Conjuncts fragment.words formulas) fragments conjunctions

/-- Conjunctions in a row are one conjunction. -/
theorem Conjuncts.joined : Conjunctions fragments conjunctions → fragments ≠ [] →
    Conjuncts (Fragment.joined Connective.and.separator fragments).words conjunctions.flatten
  | .nil, hn => absurd rfl hn
  | .cons h .nil, _ => by
    rw [List.flatten_singleton]
    exact h
  | .cons h (.cons hnext hrest), _ => by
    rw [Fragment.words_joined_cons]
    exact h.append rfl (Conjuncts.joined (.cons hnext hrest) (List.cons_ne_nil _ _))

theorem Alternatives.joined : Operands fragments formulas → fragments ≠ [] →
    Alternatives (Fragment.joined Connective.or.separator fragments).words formulas
  | .nil, hn => absurd rfl hn
  | .cons h .nil, _ => .last (.last h)
  | .cons h (.cons hnext hrest), _ => by
    rw [Fragment.words_joined_cons]
    exact .more (.last h) (Alternatives.joined (.cons hnext hrest) (List.cons_ne_nil _ _))

-- ---------------------------------------------------------------------------
-- Predicates and intervals
-- ---------------------------------------------------------------------------

/-- The words that stand for a condition. -/
def Condition.words (condition : Condition) : Fragment :=
  match condition.compile with
  | .ok fragment => fragment.words
  | .error _ => []

mutual
/-- The formula that the words of a predicate are read as. -/
def Predicate.formula : Predicate → Formula
  | .leaf condition => .atom condition.words
  | .group connective children => .of connective (Predicate.formulas children)
def Predicate.formulas : List Predicate → List Formula
  | [] => []
  | child :: rest => child.formula :: Predicate.formulas rest
end

theorem Condition.operand {condition : Condition} (h : condition.compile = .ok fragment) :
    Operand (Fragment.words fragment) (.atom condition.words) := by
  have hw : condition.words = Fragment.words fragment := by rw [Condition.words, h]
  obtain ⟨test, rfl⟩ := Condition.compile_column h
  rw [hw]
  refine .atom (List.cons_ne_nil _ _) ?_
  intro word hm
  have hp := (Condition.compile_derives h).plain word (List.mem_of_mem_filter hm)
  exact (Token.isPlain_iff.mp hp).1

theorem Fragment.words_enclosed (fragment : Fragment) :
    fragment.enclosed.words = .openParen :: fragment.words ++ [.closeParen] := by
  rw [Fragment.enclosed, Fragment.words_append]
  rfl

/-- A group of one connective is read as one group. -/
theorem Predicate.grouped_operand (connective : Connective) {operands : List Formula}
    (h : Operands members operands) (hn : members ≠ []) :
    Operand (Predicate.grouped connective members).words (.of connective operands) := by
  rw [Predicate.grouped, Fragment.words_enclosed]
  cases connective with
  | and =>
    have hs : Conjunctions members (operands.map fun formula => [formula]) :=
      List.forall₂_map_right_iff.mpr (h.imp fun _ _ ho => .last ho)
    have hc := Conjuncts.joined hs hn
    rw [← List.flatMap_def, List.flatMap_singleton'] at hc
    exact .enclosed (.last hc)
  | or => exact .enclosed (Alternatives.joined h hn)

mutual
theorem Predicate.operand (depth : Nat) : (p : Predicate) →
    (∀ members ∈ p.groups, members ≠ []) → p.compileAt limit depth = .ok fragment →
      Operand (Fragment.words fragment) p.formula
  | .leaf condition, _, h => Condition.operand (Predicate.compileAt_leaf_ok.mp h).2
  | .group connective children, hg, h => by
    obtain ⟨_, members, hm, rfl⟩ := Predicate.compileAt_group_ok.mp h
    simp only [Predicate.groups, List.forall_mem_cons] at hg
    have ho := Predicate.operands (depth + 1) children hg.2 hm
    refine Predicate.grouped_operand connective ho ?_
    rintro rfl
    cases children with
    | nil => exact hg.1 rfl
    | cons child rest => cases ho
theorem Predicate.operands (depth : Nat) : (children : List Predicate) →
    (∀ members ∈ Predicate.allGroups children, members ≠ []) →
    Predicate.compileAllAt limit depth children = .ok fragments →
      Operands fragments (Predicate.formulas children)
  | [], _, h => by
    cases h
    exact .nil
  | child :: rest, hg, h => by
    obtain ⟨first, hf, others, ho, rfl⟩ := Predicate.compileAllAt_cons_ok.mp h
    simp only [Predicate.allGroups, List.forall_mem_append] at hg
    exact .cons (Predicate.operand depth child hg.1 hf) (Predicate.operands depth rest hg.2 ho)
end

theorem Predicate.reads_formula {p : Predicate} (hg : ∀ members ∈ p.groups, members ≠ [])
    (h : p.compile limit = .ok fragment) : Reads (Fragment.words fragment) p.formula :=
  ⟨[p.formula], .last (.last (p.operand 1 hg h)), rfl⟩

section
variable [Lattice α] [BoundedOrder α]

mutual
theorem Predicate.value_formula (truth : Fragment → α) : (p : Predicate) →
    p.formula.value truth = p.value fun condition => truth condition.words
  | .leaf _ => rfl
  | .group connective children => by
    rw [Predicate.formula, Formula.value_of, Predicate.values_formulas truth children]
    rfl
theorem Predicate.values_formulas (truth : Fragment → α) : (children : List Predicate) →
    (Predicate.formulas children).map (Formula.value truth) =
      Predicate.values (fun condition => truth condition.words) children
  | [] => rfl
  | child :: rest => by
    rw [Predicate.formulas, List.map_cons, Predicate.value_formula truth child,
      Predicate.values_formulas truth rest]
    rfl
end

end

/-- The words of the bounds of an interval: one for a number of days, two for a range. The dates
are those that the bounds have in the zone. -/
def Interval.bounds (options : StatementOptions) : Interval → List Fragment
  | .days count =>
    [[.column options.dateColumn, .comparison .greaterOrEqual, .currentTimestamp, .minus,
      .interval, .inline (count.numeral ++ " day")]]
  | .range bounds =>
    [[.column options.dateColumn, .comparison .greaterOrEqual,
      .inline (bounds.first.dateAt options.zone.offset).plainText],
     [.column options.dateColumn, .comparison .lessOrEqual,
      .inline (bounds.last.dateAt options.zone.offset).plainText]]

theorem Interval.bounds_plain (options : StatementOptions) (interval : Interval) :
    ∀ bound ∈ interval.bounds options,
      bound ≠ [] ∧ ∀ word ∈ bound, word.isMark = false := by
  cases interval <;> simp [Interval.bounds, Token.isMark]

theorem Interval.conjuncts {options : StatementOptions} {interval : Interval}
    (h : interval.compile options = .ok fragment) :
    Conjuncts (Fragment.words fragment) ((interval.bounds options).map .atom) := by
  have hp := interval.bounds_plain options
  cases interval with
  | days count =>
    cases h
    obtain ⟨hn, hw⟩ := hp _ List.mem_cons_self
    exact .last (.atom hn hw)
  | range bounds =>
    obtain ⟨first, last, hf, hl, rfl⟩ := Interval.compile_range_ok.mp h
    obtain rfl := Timestamp.dateAt_of_dateIn? hf
    obtain rfl := Timestamp.dateAt_of_dateIn? hl
    obtain ⟨⟨hn, hw⟩, hr⟩ := List.forall_mem_cons.mp hp
    obtain ⟨hn', hw'⟩ := hr _ List.mem_cons_self
    have hc : Token.lowerAnd.isConjunction = true := rfl
    exact .more (.atom hn hw) hc (.last (.atom hn' hw'))

-- ---------------------------------------------------------------------------
-- The restriction of a statement
-- ---------------------------------------------------------------------------

/-- What the conditions in force are read as, condition by condition. -/
def Parameters.conjunctions (options : StatementOptions) (parameters : Parameters) :
    List (List Formula) :=
  parameters.interval.toList.map (fun interval => (interval.bounds options).map .atom) ++
    parameters.rowFilters.map fun filter => [filter.predicate.formula]

theorem RowFilter.operands {filters : List RowFilter}
    (hg : ∀ filter ∈ filters, ∀ members ∈ filter.predicate.groups, members ≠ [])
    (h : List.Forall₂ (fun filter fragment => filter.predicate.compile limit = .ok fragment)
      filters fragments) :
    Conjunctions fragments (filters.map fun filter => [filter.predicate.formula]) := by
  induction h with
  | nil => exact .nil
  | cons hf _ ih =>
    rw [List.forall_mem_cons] at hg
    exact .cons (.last (Predicate.operand 1 _ hg.1 hf)) (ih hg.2)

theorem Composition.conditions_read {options : StatementOptions} {parameters : Parameters}
    (hg : ∀ filter ∈ parameters.rowFilters, ∀ members ∈ filter.predicate.groups, members ≠ [])
    (h : Composition.conditions options parameters = .ok fragments) :
    Conjunctions fragments (parameters.conjunctions options) := by
  obtain ⟨dates, hd, filters, hf, rfl⟩ := Composition.conditions_ok.mp h
  have hb : Conjunctions dates (parameters.interval.toList.map fun interval =>
      (interval.bounds options).map .atom) :=
    List.forall₂_map_right_iff.mpr (hd.flip.imp fun _ _ hi => Interval.conjuncts hi)
  exact List.rel_append hb (RowFilter.operands hg hf)

/-- The restriction is read as the conjunction of its conditions. -/
theorem Composition.restriction_read {conditions : List Fragment}
    (h : Conjunctions conditions conjunctions) :
    ∃ rows, Restricts (Composition.restriction conditions).words rows ∧
      ∀ {α : Type} [Lattice α] [BoundedOrder α] (truth : Fragment → α), rowsValue truth rows =
        Connective.and.combine (conjunctions.flatten.map (Formula.value truth)) := by
  cases conditions with
  | nil =>
    cases h
    exact ⟨none, .nothing, fun _ => rfl⟩
  | cons first rest =>
    have hr : Reads _ (.of .and conjunctions.flatten) :=
      ⟨_, .last (Conjuncts.joined h (List.cons_ne_nil first rest)), rfl⟩
    refine ⟨_, .rows hr, fun truth => ?_⟩
    exact Formula.value_of truth .and conjunctions.flatten

theorem Parameters.value_conjunctions [Lattice α] [BoundedOrder α] (truth : Fragment → α)
    (options : StatementOptions) (parameters : Parameters) :
    (parameters.conjunctions options).flatten.map (Formula.value truth) =
      (parameters.interval.toList.flatMap (Interval.bounds options)).map truth ++
        parameters.rowFilters.map fun filter =>
          filter.predicate.value fun condition => truth condition.words := by
  rw [Parameters.conjunctions, List.flatten_append, List.map_append]
  congr 1
  · cases parameters.interval with
    | none => rfl
    | some interval => simp [Formula.value]
  · rw [← List.flatMap_def, List.map_flatMap]
    simp only [List.map_singleton, Predicate.value_formula]
    exact List.map_eq_flatMap.symm

theorem Composition.conditions_eq_nil {options : StatementOptions} {parameters : Parameters}
    (h : Composition.conditions options parameters = .ok fragments) :
    fragments = [] ↔ parameters.interval = none ∧ parameters.rowFilters = [] := by
  obtain ⟨dates, hd, filters, hf, rfl⟩ := Composition.conditions_ok.mp h
  rw [List.append_eq_nil_iff, ← List.length_eq_zero_iff, ← hd.length_eq, List.length_eq_zero_iff,
    Option.toList_eq_nil_iff, ← List.length_eq_zero_iff, ← hf.length_eq, List.length_eq_zero_iff]

/-- Only a statement with conditions has a `WHERE`. -/
theorem Composition.whereRows_notMem {options : StatementOptions} {composition : Composition}
    {parameters : Parameters}
    (h : composition.compile options used parameters = .ok statement) :
    Token.whereRows ∉ statement ↔ parameters.interval = none ∧ parameters.rowFilters = [] := by
  obtain ⟨head, conditions, hi, hc, rfl⟩ := Composition.compile_inner h
  rw [← Composition.conditions_eq_nil hc]
  constructor
  · intro hw
    cases conditions with
    | nil => rfl
    | cons first rest => simp [Composition.restriction] at hw
  · rintro rfl
    simp [Composition.restriction, hi.whereRows_notMem]

theorem restriction_means_filters_in_force {options : StatementOptions} {schema : Option String}
    {overrides : Overrides} {composition : Composition}
    (h : composition.compose options schema overrides = .ok (used, statement))
    (hg : ∀ filter ∈
      RowFilter.merge (overrides.rowFilters.getD []) composition.parameters.rowFilters,
      ∀ members ∈ filter.predicate.groups, members ≠ []) :
    let interval := overrides.interval.getD composition.parameters.interval
    let filters := RowFilter.merge (overrides.rowFilters.getD []) composition.parameters.rowFilters
    (∃ rows, Restricts statement.afterTable.words rows ∧
      (∀ other, Restricts statement.afterTable.words other → other = rows) ∧
      ∀ {α : Type} [Lattice α] [BoundedOrder α] (truth : Fragment → α),
        rowsValue truth rows = Connective.and.combine
          ((interval.toList.flatMap (Interval.bounds options)).map truth ++
            filters.map fun filter =>
              filter.predicate.value fun condition => truth condition.words)) ∧
      (Token.whereRows ∉ statement ↔ interval = none ∧ filters = []) := by
  intro interval filters
  obtain ⟨_, _, hc⟩ := Composition.compose_ok.mp h
  obtain ⟨head, conditions, hi, ho, rfl⟩ := Composition.compile_inner hc
  refine ⟨?_, Composition.whereRows_notMem hc⟩
  obtain ⟨rows, hr, hv⟩ := Composition.restriction_read (Composition.conditions_read hg ho)
  rw [hi.afterTable_append]
  refine ⟨rows, hr, fun other ho => ho.unique hr, fun truth => ?_⟩
  rw [hv, Parameters.value_conjunctions]
  rfl

/-- A day, a filter that a request replaces and a filter that stays. -/
def installsOfDay : Composition where
  table := "cube"
  columns := .ofEntries [("installs", .raw "sum(installs)")]
  parameters :=
    { interval := some (.range ⟨⟨1700000000, 0, 0, by decide⟩, ⟨1700000000, 0, 0, by decide⟩⟩)
      rowFilters :=
        [.named "kind" (.leaf ⟨"kind", "equal", .text "paid", none⟩),
          .named "known" (.leaf ⟨"country", "is_not_null", .null, none⟩)] }

def paidOrLargeAndNew : Overrides where
  rowFilters := some [.named "kind" (.group .and
    [.group .or
      [.leaf ⟨"kind", "equal", .text "paid", none⟩,
        .leaf ⟨"size", "greater_than", .number (.int 9), none⟩],
      .leaf ⟨"age", "less_than", .number (.int 2), none⟩])]

def installsStatement : Fragment :=
  [.select, .space, .raw "sum(installs)", .space, .fromTable, .space, .qualified "acme" "cube",
    .space, .whereRows, .space, .column "daily_cohort", .space, .comparison .greaterOrEqual, .space,
    .inline "2023-11-14", .space, .lowerAnd, .space, .column "daily_cohort", .space,
    .comparison .lessOrEqual, .space, .inline "2023-11-14", .space, .and, .space, .openParen,
    .openParen, .column "kind", .space, .comparison .equal, .space, .string "paid", .space, .or,
    .space, .column "size", .space, .comparison .greater, .space, .number (.int 9), .closeParen,
    .space, .and, .space, .column "age", .space, .comparison .less, .space, .number (.int 2),
    .closeParen, .space, .and, .space, .column "country", .space, .isNotNull]

theorem restriction_means_filters_in_force_installs :
    installsOfDay.compose {} (some "acme") paidOrLargeAndNew = .ok ("acme", installsStatement) ∧
      ∃ rows, Restricts installsStatement.afterTable.words rows ∧
        ∀ truth : Fragment → Truth, rowsValue truth rows = Connective.and.combine
          [truth [.column "daily_cohort", .comparison .greaterOrEqual, .inline "2023-11-14"],
            truth [.column "daily_cohort", .comparison .lessOrEqual, .inline "2023-11-14"],
            Connective.and.combine
              [Connective.or.combine
                [truth [.column "kind", .comparison .equal, .string "paid"],
                  truth [.column "size", .comparison .greater, .number (.int 9)]],
                truth [.column "age", .comparison .less, .number (.int 2)]],
            truth [.column "country", .isNotNull]] := by
  have h : installsOfDay.compose {} (some "acme") paidOrLargeAndNew =
      .ok ("acme", installsStatement) := rfl
  have hg : ∀ filter ∈ RowFilter.merge (paidOrLargeAndNew.rowFilters.getD [])
      installsOfDay.parameters.rowFilters, ∀ members ∈ filter.predicate.groups, members ≠ [] := by
    decide
  obtain ⟨rows, hr, _, hv⟩ := (restriction_means_filters_in_force h hg).1
  exact ⟨h, rows, hr, fun truth => hv truth⟩

end DeclarativeSql
