import DeclarativeSql.Check.Rules
import DeclarativeSql.Proofs.Check.Places

/-!
# Problems are apart

No check finds two problems of one kind at one place. Every problem of a part lies below the place
of the part, and the places of different parts have nothing below them in common. `Located` says
both of the problems of one part, `Spread` of those of the items of a list.
-/

namespace DeclarativeSql

open Place (Below innerNames)
open Check (items)

namespace Problem

inductive Kind
  | malformed
  | ambiguousSource
  | empty
  | tooFew
  | tooMany
  | unknownOperator
  | missingValue
  | nullValue
  | wrongTemplate
  | tooDeep
  deriving DecidableEq

def kind : Problem → Kind
  | malformed _ => .malformed
  | ambiguousSource => .ambiguousSource
  | empty _ => .empty
  | tooFew _ _ _ => .tooFew
  | tooMany _ _ _ => .tooMany
  | unknownOperator _ _ => .unknownOperator
  | missingValue _ _ => .missingValue
  | nullValue _ => .nullValue
  | wrongTemplate _ _ => .wrongTemplate
  | tooDeep _ _ => .tooDeep

def place? : Problem → Option Place
  | malformed _ | ambiguousSource => none
  | empty place | tooFew place _ _ | tooMany place _ _ | unknownOperator place _
  | missingValue place _ | nullValue place | wrongTemplate place _ | tooDeep place _ => some place

/-- Of different kinds, or at different places. -/
def Apart (first second : Problem) : Prop :=
  first.kind = second.kind → first.place? ≠ second.place?

end Problem

open Problem (Apart)

-- ---------------------------------------------------------------------------
-- Problems below a place
-- ---------------------------------------------------------------------------

/-- Problems below a place, each of them apart from the others. -/
structure Located (names : List String) (outer : Place) (problems : List Problem) : Prop where
  below : ∀ problem ∈ problems, ∃ place, problem.place? = some place ∧ Below names outer place
  apart : problems.Pairwise Apart

variable {names names' : List String} {outer inner place : Place} {problem : Problem}
  {problems others : List Problem}

theorem eq_of_mem_if {c : Prop} [Decidable c] {other : Problem}
    (h : problem ∈ if c then [other] else []) : problem = other := by
  split at h
  · exact List.mem_singleton.mp h
  · cases h

namespace Located

theorem single (hp : problem.place? = some place) (hb : Below names outer place) :
    Located names outer [problem] :=
  ⟨List.forall_mem_singleton.mpr ⟨place, hp, hb⟩, List.pairwise_singleton Apart problem⟩

theorem single_if {c : Prop} [Decidable c] (hp : problem.place? = some place)
    (hb : Below names outer place) : Located names outer (if c then [problem] else []) := by
  split
  · exact single hp hb
  · exact ⟨List.forall_mem_nil _, List.Pairwise.nil⟩

theorem append (h : Located names outer problems) (h' : Located names outer others)
    (hd : ∀ first ∈ problems, ∀ second ∈ others, Apart first second) :
    Located names outer (problems ++ others) :=
  ⟨List.forall_mem_append.mpr ⟨h.below, h'.below⟩, List.pairwise_append.mpr ⟨h.apart, h'.apart, hd⟩⟩

/-- Two checks for problems of different kinds. -/
theorem pair {c d : Prop} [Decidable c] [Decidable d] {first second : Problem}
    (h : Located names outer (if c then [first] else []))
    (h' : Located names outer (if d then [second] else [])) (hk : first.kind ≠ second.kind) :
    Located names outer ((if c then [first] else []) ++ if d then [second] else []) :=
  h.append h' fun _ hf _ hs he => absurd (eq_of_mem_if hf ▸ eq_of_mem_if hs ▸ he) hk

theorem mono (h : Located names' inner problems) (hb : Below names outer inner)
    (hn : names' ⊆ names) : Located names outer problems := by
  refine ⟨fun problem hm => ?_, h.apart⟩
  obtain ⟨place, hp, h⟩ := h.below problem hm
  exact ⟨place, hp, hb.trans hn h⟩

/-- Problems that are reached by some names only are not below a child with another name. -/
theorem place_ne {name : String} (h : Located names outer problems)
    (h' : Located names' (.member outer name) others) (hn : name ∉ names) :
    ∀ first ∈ problems, ∀ second ∈ others, first.place? ≠ second.place? := by
  intro first hf second hs he
  obtain ⟨place, hp, hb⟩ := h.below first hf
  obtain ⟨place', hp', hb'⟩ := h'.below second hs
  cases hp.symm.trans (he.trans hp')
  exact hb.not_below_member hn hb'

end Located

/-- Problems below items of a place, from an index on. -/
structure Spread (names : List String) (outer : Place) (start : Nat) (problems : List Problem) :
    Prop where
  below : ∀ problem ∈ problems, ∃ index place, start ≤ index ∧ problem.place? = some place ∧
    Below names (.item outer index) place
  apart : problems.Pairwise Apart

namespace Spread

variable {start : Nat}

theorem nil : Spread names outer start [] :=
  ⟨List.forall_mem_nil _, List.Pairwise.nil⟩

theorem cons (h : Located names (.item outer start) problems)
    (h' : Spread names outer (start + 1) others) :
    Spread names outer start (problems ++ others) := by
  refine ⟨List.forall_mem_append.mpr ⟨fun problem hm => ?_, fun problem hm => ?_⟩,
    List.pairwise_append.mpr ⟨h.apart, h'.apart, fun first hf second hs _ he => ?_⟩⟩
  · obtain ⟨place, hp, hb⟩ := h.below problem hm
    exact ⟨start, place, Nat.le_refl start, hp, hb⟩
  · obtain ⟨index, place, hi, hp, hb⟩ := h'.below problem hm
    exact ⟨index, place, Nat.le_of_succ_le hi, hp, hb⟩
  · obtain ⟨place, hp, hb⟩ := h.below first hf
    obtain ⟨index, place', hi, hp', hb'⟩ := h'.below second hs
    cases hp.symm.trans (he.trans hp')
    exact absurd (hb.index_unique hb') (Nat.ne_of_lt hi)

theorem items {check : Place → α → List Problem}
    (h : ∀ place item, Located names place (check place item)) (l : List α) :
    Spread names outer start (items check outer start l) := by
  induction l generalizing start with
  | nil => exact nil
  | cons item rest ih => exact cons (h _ item) ih

/-- A problem of a list as a whole, such as its length, stands in front of those of its items. -/
theorem located {c : Prop} [Decidable c] (h : Spread names outer start problems)
    (hp : problem.place? = some outer) :
    Located names outer ((if c then [problem] else []) ++ problems) := by
  refine (Located.single_if hp .self).append ⟨fun problem hm => ?_, h.apart⟩ ?_
  · obtain ⟨index, place, -, hp, hb⟩ := h.below problem hm
    exact ⟨place, hp, Below.self.item.trans (List.Subset.refl names) hb⟩
  · intro first hf second hs _ he
    obtain ⟨index, place, -, hp', hb⟩ := h.below second hs
    rw [eq_of_mem_if hf, hp, hp', Option.some.injEq] at he
    exact absurd (he ▸ hb.depth_le) (Nat.not_succ_le_self _)

end Spread

-- ---------------------------------------------------------------------------
-- Clauses and row filters
-- ---------------------------------------------------------------------------

/-- The names of the steps inside a predicate. -/
def predicateNames : List String :=
  ["and", "or", "column", "operator", "value"]

theorem predicateNames_subset : predicateNames ⊆ innerNames := by
  decide

theorem Condition.located (place : Place) (condition : Condition) :
    Located predicateNames place (condition.problems place) := by
  have hchild {name : String} (hn : name ∈ predicateNames) :
      Below predicateNames place (.member place name) := Below.self.member hn
  rw [Condition.problems]
  cases Operator.ofName? condition.operator with
  | none =>
    refine (Located.single_if rfl (hchild (by decide))).append
      (Located.single rfl (hchild (by decide))) ?_
    intro first hf second hs hk
    rw [eq_of_mem_if hf, List.mem_singleton.mp hs] at hk
    cases hk
  | some operator =>
    exact (Located.single_if rfl (hchild (by decide))).pair
      (Located.single_if rfl (hchild (by decide))) nofun

mutual
theorem Predicate.located_problemsAt (limit depth : Nat) (place : Place) : (p : Predicate) →
    Located predicateNames place (p.problemsAt limit depth place)
  | .leaf condition => by
    rw [Predicate.problemsAt]
    split
    · exact .single rfl .self
    · exact condition.located place
  | .group connective children => by
    rw [Predicate.problemsAt]
    split
    · exact .single rfl .self
    · have hn : connective.name ∈ predicateNames := by cases connective <;> decide
      exact ((Predicate.spread_problemsOfAll limit (depth + 1) _ 0 children).located rfl).mono
        (Below.self.member hn) (List.Subset.refl _)
theorem Predicate.spread_problemsOfAll (limit depth : Nat) (place : Place) (start : Nat) :
    (children : List Predicate) →
      Spread predicateNames place start (Predicate.problemsOfAll limit depth place start children)
  | [] => .nil
  | child :: rest =>
    .cons (Predicate.located_problemsAt limit depth _ child)
      (Predicate.spread_problemsOfAll limit depth place (start + 1) rest)
end

theorem Outcome.located (place : Place) (outcome : Outcome) :
    Located innerNames place (outcome.problems place) := by
  cases outcome with
  | column name => exact .single_if rfl (Below.self.member (by decide))
  | value literal => exact .single_if rfl (Below.self.member (by decide))

theorem CaseClause.located (limit : Nat) (place : Place) (clause : CaseClause) :
    Located innerNames place (clause.problems limit place) := by
  cases clause with
  | branch condition outcome =>
    have hc : Located predicateNames place (condition.problems limit place) :=
      condition.located_problemsAt limit 1 place
    have ho := outcome.located (.member place "then")
    exact (hc.mono .self predicateNames_subset).append
      (ho.mono (Below.self.member (by decide)) (List.Subset.refl _))
      fun first hf second hs _ => hc.place_ne ho (by decide) first hf second hs
  | otherwise outcome =>
    exact (outcome.located (.member place "default")).mono (Below.self.member (by decide))
      (List.Subset.refl _)

theorem FilterMetadata.located (place : Place) (metadata : FilterMetadata) :
    Located innerNames place (metadata.problems place) :=
  (Located.single_if rfl .self).pair (.single_if rfl (Below.self.member (by decide))) nofun

theorem RowFilter.located (limit : Nat) (place : Place) (filter : RowFilter) :
    Located innerNames place (filter.problems limit place) := by
  have hm := filter.metadata.located (.member place "metadata")
  have hp : Located predicateNames place (filter.predicate.problems limit place) :=
    filter.predicate.located_problemsAt limit 1 place
  exact (hm.mono (Below.self.member (by decide)) (List.Subset.refl _)).append
    (hp.mono .self predicateNames_subset)
    fun first hf second hs _ => (hp.place_ne hm (by decide) second hs first hf).symm

theorem RowFilter.located_problemsOfAll (limit : Nat) (place : Place) (filters : List RowFilter) :
    Located innerNames place (RowFilter.problemsOfAll limit place filters) :=
  (Spread.items (RowFilter.located limit) filters).located rfl

/-- The name that the problems of a column have in common behind its own. -/
def Column.partName : Column → String
  | .raw _ => "sql"
  | .cased _ => "cases"

theorem Column.located (limit : Nat) (place : Place) (column : Column) :
    Located innerNames (.member place column.partName) (column.problems limit place) := by
  cases column with
  | raw sql => exact .single_if rfl .self
  | cased clauses => exact (Spread.items (CaseClause.located limit) clauses).located rfl

end DeclarativeSql
