import DeclarativeSql.Query.Parameters

/-!
# Merging by a key

A merged list has the keys of both of its parts, so it does not matter which two of three lists
are merged first. What it adds to the first part is the longest subsequence of the second whose
keys the first does not have, and a list takes nothing from what it has been merged into.
-/

namespace DeclarativeSql

section
variable [DecidableEq κ] (key : α → κ)

@[simp] theorem mergeBy_nil_left (items : List α) : mergeBy key [] items = items := by
  simp [mergeBy]

@[simp] theorem mergeBy_nil_right (items : List α) : mergeBy key items [] = items := by
  simp [mergeBy]

theorem mem_keys_mergeBy {k : κ} {primary secondary : List α} :
    k ∈ (mergeBy key primary secondary).map key ↔
      k ∈ primary.map key ∨ k ∈ secondary.map key := by
  rw [mergeBy, List.map_append, List.mem_append]
  constructor
  · rintro (hp | hs)
    · exact .inl hp
    · obtain ⟨item, hm, rfl⟩ := List.mem_map.mp hs
      exact .inr (List.mem_map_of_mem (List.mem_filter.mp hm).1)
  · rintro (hp | hs)
    · exact .inl hp
    · by_cases hk : k ∈ primary.map key
      · exact .inl hk
      · obtain ⟨item, hm, rfl⟩ := List.mem_map.mp hs
        exact .inr (List.mem_map_of_mem (List.mem_filter.mpr ⟨hm, decide_eq_true hk⟩))

theorem mergeBy_assoc (first second third : List α) :
    mergeBy key first (mergeBy key second third) =
      mergeBy key (mergeBy key first second) third := by
  have hthird : (third.filter fun item => key item ∉ second.map key).filter
        (fun item => key item ∉ first.map key) =
      third.filter fun item => key item ∉ (mergeBy key first second).map key := by
    rw [List.filter_filter]
    refine List.filter_congr fun item _ => ?_
    rw [← Bool.decide_and, decide_eq_decide, mem_keys_mergeBy, not_or]
  rw [mergeBy, mergeBy, List.filter_append, hthird, ← List.append_assoc]
  rfl

theorem mergeBy_mergeBy_self (primary secondary : List α) :
    mergeBy key primary (mergeBy key primary secondary) = mergeBy key primary secondary := by
  have hnone : (primary.filter fun item => key item ∉ primary.map key) = [] := by
    refine List.filter_eq_nil_iff.mpr fun item hm => ?_
    rw [decide_eq_true_eq, Classical.not_not]
    exact List.mem_map_of_mem hm
  rw [mergeBy, mergeBy, List.filter_append, hnone, List.nil_append, List.filter_filter]
  simp only [Bool.and_self]

/-- The items that a filter keeps are the longest subsequence of items that pass it. -/
theorem sublist_filter {p : α → Bool} {kept items : List α} :
    kept.Sublist (items.filter p) ↔ kept.Sublist items ∧ ∀ item ∈ kept, p item = true := by
  constructor
  · intro h
    exact ⟨h.trans List.filter_sublist, fun item hm => (List.mem_filter.mp (h.subset hm)).2⟩
  · rintro ⟨hs, hp⟩
    rw [← List.filter_eq_self.mpr hp]
    exact hs.filter p

theorem merging_is_a_monoid_with_shadowing (first second third : List α) :
    mergeBy key first (mergeBy key second third) =
        mergeBy key (mergeBy key first second) third ∧
      mergeBy key [] first = first ∧ mergeBy key first [] = first ∧
      mergeBy key first (mergeBy key first second) = mergeBy key first second ∧
      (∃ rest, mergeBy key first second = first ++ rest ∧
        ∀ kept : List α, kept.Sublist rest ↔
          kept.Sublist second ∧ ∀ item ∈ kept, key item ∉ first.map key) ∧
      ∀ k, k ∈ (mergeBy key first second).map key ↔ k ∈ first.map key ∨ k ∈ second.map key := by
  refine ⟨mergeBy_assoc key first second third, mergeBy_nil_left key first,
    mergeBy_nil_right key first, mergeBy_mergeBy_self key first second, ⟨_, rfl, fun kept => ?_⟩,
    fun k => mem_keys_mergeBy key⟩
  simp only [sublist_filter, decide_eq_true_eq]

end

-- a key that stands twice in one part stays twice
example : mergeBy Prod.fst [('c', 3), ('a', 3), ('a', 4)] [('a', 1), ('b', 1), ('b', 2), ('c', 1)] =
    [('c', 3), ('a', 3), ('a', 4), ('b', 1), ('b', 2)] := by
  decide

end DeclarativeSql
