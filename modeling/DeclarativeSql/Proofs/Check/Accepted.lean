import DeclarativeSql.Check.Rules
import DeclarativeSql.Proofs.Query.Trees

/-!
# What the check accepts

`Predicate.problems_eq_nil`: a predicate has no problems exactly when it is no higher than the
limit, each of its conditions is sound and no group is too small. Only the height knows the
limit, so whatever one limit accepts a deeper one accepts too.
-/

namespace DeclarativeSql

open Check (minGroupSize)

structure Condition.Sound (condition : Condition) : Prop where
  column : Text.isBlank condition.column = false
  comparison : ∃ operator, Operator.ofName? condition.operator = some operator ∧
    (operator.takesValue = true → condition.value.isNull = false)

structure Predicate.Accepted (limit : Nat) (p : Predicate) : Prop where
  height : p.height ≤ limit
  leaves : ∀ condition ∈ p.leaves, condition.Sound
  groups : ∀ children ∈ p.groups, minGroupSize ≤ children.length

-- ---------------------------------------------------------------------------
-- Single checks
-- ---------------------------------------------------------------------------

theorem Check.notEmpty_eq_nil : Check.notEmpty place text = [] ↔ text ≠ "" := by
  simp [Check.notEmpty]

theorem Check.notBlank_eq_nil : Check.notBlank place text = [] ↔ Text.isBlank text = false := by
  simp [Check.notBlank]

theorem Check.atLeast_eq_nil : Check.atLeast least place found = [] ↔ least ≤ found := by
  simp [Check.atLeast]

theorem Check.atMost_eq_nil : Check.atMost most place found = [] ↔ found ≤ most := by
  simp [Check.atMost]

/-- A list is accepted when every item is, wherever it stands. -/
theorem Check.items_eq_nil {check : Place → α → List Problem} {Ok : α → Prop}
    (h : ∀ place item, check place item = [] ↔ Ok item) (place : Place) (start : Nat)
    (l : List α) : Check.items check place start l = [] ↔ ∀ item ∈ l, Ok item := by
  induction l generalizing start with
  | nil => simp [Check.items]
  | cons item rest ih => simp [Check.items, h, ih]

-- ---------------------------------------------------------------------------
-- Predicates
-- ---------------------------------------------------------------------------

theorem Condition.problems_eq_nil (place : Place) (condition : Condition) :
    condition.problems place = [] ↔ condition.Sound := by
  have hc : condition.problems place = [] ↔ Text.isBlank condition.column = false ∧
      ∃ operator, Operator.ofName? condition.operator = some operator ∧
        (operator.takesValue = true → condition.value.isNull = false) := by
    simp only [Condition.problems, List.append_eq_nil_iff, Check.notBlank_eq_nil]
    cases Operator.ofName? condition.operator <;> simp
  rw [hc]
  exact ⟨fun ⟨h, ho⟩ => ⟨h, ho⟩, fun ⟨h, ho⟩ => ⟨h, ho⟩⟩

mutual
theorem Predicate.problemsAt_eq_nil (limit depth : Nat) (place : Place) : (p : Predicate) →
    (p.problemsAt limit depth place = [] ↔
      depth + p.height ≤ limit + 1 ∧ (∀ condition ∈ p.leaves, condition.Sound) ∧
        ∀ children ∈ p.groups, minGroupSize ≤ children.length)
  | .leaf condition => by
    simp only [Predicate.problemsAt, Predicate.height, Predicate.leaves, Predicate.groups,
      List.mem_singleton, forall_eq, List.not_mem_nil, false_implies, implies_true, and_true]
    split
    · simp only [List.cons_ne_nil, false_iff]
      omega
    · rw [condition.problems_eq_nil]
      exact ⟨fun h => ⟨by omega, h⟩, And.right⟩
  | .group connective children => by
    simp only [Predicate.problemsAt, Predicate.height, Predicate.leaves, Predicate.groups,
      List.mem_cons, forall_eq_or_imp]
    split
    · simp only [List.cons_ne_nil, false_iff]
      omega
    · rename_i hd
      rw [List.append_eq_nil_iff, Check.atLeast_eq_nil,
        Predicate.problemsOfAll_eq_nil limit (depth + 1) _ 0 (by omega) children]
      constructor
      · rintro ⟨hs, hh, hl, hg⟩
        exact ⟨by omega, hl, hs, hg⟩
      · rintro ⟨hh, hl, hs, hg⟩
        exact ⟨hs, by omega, hl, hg⟩
theorem Predicate.problemsOfAll_eq_nil (limit depth : Nat) (place : Place) (start : Nat)
    (hd : depth ≤ limit + 1) : (children : List Predicate) →
    (Predicate.problemsOfAll limit depth place start children = [] ↔
      depth + Predicate.maxHeight children ≤ limit + 1 ∧
        (∀ condition ∈ Predicate.allLeaves children, condition.Sound) ∧
          ∀ group ∈ Predicate.allGroups children, minGroupSize ≤ group.length)
  | [] => by
    simp [Predicate.problemsOfAll, Predicate.maxHeight, Predicate.allLeaves, Predicate.allGroups,
      hd]
  | child :: rest => by
    simp only [Predicate.problemsOfAll, Predicate.maxHeight, Predicate.allLeaves,
      Predicate.allGroups, List.append_eq_nil_iff, List.forall_mem_append]
    rw [Predicate.problemsAt_eq_nil limit depth _ child,
      Predicate.problemsOfAll_eq_nil limit depth place (start + 1) hd rest]
    constructor
    · rintro ⟨⟨hh, hl, hg⟩, hhr, hlr, hgr⟩
      exact ⟨by omega, ⟨hl, hlr⟩, hg, hgr⟩
    · rintro ⟨hh, ⟨hl, hlr⟩, hg, hgr⟩
      exact ⟨⟨by omega, hl, hg⟩, by omega, hlr, hgr⟩
end

theorem Predicate.problems_eq_nil (limit : Nat) (place : Place) (p : Predicate) :
    p.problems limit place = [] ↔ p.Accepted limit := by
  rw [Predicate.problems, Predicate.problemsAt_eq_nil]
  constructor
  · rintro ⟨hh, hl, hg⟩
    exact ⟨by omega, hl, hg⟩
  · rintro ⟨hh, hl, hg⟩
    exact ⟨by omega, hl, hg⟩

theorem Predicate.Accepted.deeper {limit deeper : Nat} {p : Predicate} (h : p.Accepted limit)
    (hd : limit ≤ deeper) : p.Accepted deeper :=
  ⟨Nat.le_trans h.height hd, h.leaves, h.groups⟩

-- ---------------------------------------------------------------------------
-- Row filters
-- ---------------------------------------------------------------------------

structure FilterMetadata.Sound (metadata : FilterMetadata) : Prop where
  template : metadata.templateType = RowFilter.template
  identifier : metadata.identifier ≠ ""

structure RowFilter.Accepted (limit : Nat) (filter : RowFilter) : Prop where
  metadata : filter.metadata.Sound
  predicate : filter.predicate.Accepted limit

theorem FilterMetadata.problems_eq_nil (place : Place) (metadata : FilterMetadata) :
    metadata.problems place = [] ↔ metadata.Sound := by
  have h : metadata.problems place = [] ↔
      metadata.templateType = RowFilter.template ∧ metadata.identifier ≠ "" := by
    simp [FilterMetadata.problems, Check.notEmpty_eq_nil]
  rw [h]
  exact ⟨fun ⟨ht, hi⟩ => ⟨ht, hi⟩, fun ⟨ht, hi⟩ => ⟨ht, hi⟩⟩

theorem RowFilter.problems_eq_nil (limit : Nat) (place : Place) (filter : RowFilter) :
    filter.problems limit place = [] ↔ filter.Accepted limit := by
  rw [RowFilter.problems, List.append_eq_nil_iff, FilterMetadata.problems_eq_nil,
    Predicate.problems_eq_nil]
  exact ⟨fun ⟨hm, hp⟩ => ⟨hm, hp⟩, fun ⟨hm, hp⟩ => ⟨hm, hp⟩⟩

theorem RowFilter.problemsOfAll_eq_nil (limit : Nat) (place : Place) (filters : List RowFilter) :
    RowFilter.problemsOfAll limit place filters = [] ↔
      filters.length ≤ Check.maxRowFilters ∧ ∀ filter ∈ filters, filter.Accepted limit := by
  rw [RowFilter.problemsOfAll, List.append_eq_nil_iff, Check.atMost_eq_nil,
    Check.items_eq_nil (RowFilter.problems_eq_nil limit)]

theorem Overrides.problems_eq_nil (limit : Nat) (overrides : Overrides) :
    overrides.problems limit = [] ↔
      (overrides.rowFilters.getD []).length ≤ Check.maxRowFilters ∧
        ∀ filter ∈ overrides.rowFilters.getD [], filter.Accepted limit :=
  RowFilter.problemsOfAll_eq_nil limit _ _

theorem Overrides.problems_deeper {limit deeper : Nat} {overrides : Overrides}
    (h : overrides.problems limit = []) (hd : limit ≤ deeper) : overrides.problems deeper = [] := by
  rw [Overrides.problems_eq_nil] at h ⊢
  obtain ⟨hs, ha⟩ := h
  exact ⟨hs, fun filter hf => ⟨(ha filter hf).metadata, (ha filter hf).predicate.deeper hd⟩⟩

end DeclarativeSql
