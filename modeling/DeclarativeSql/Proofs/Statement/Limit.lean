import DeclarativeSql.Proofs.Statement.Parts

/-!
# Compiling under a deeper limit

The limit only refuses: what compiles under one limit compiles to the same tokens under every
deeper one.
-/

namespace DeclarativeSql

mutual
theorem Predicate.compileAt_deeper (hd : limit ≤ deeper) (depth : Nat) : (p : Predicate) →
    p.compileAt limit depth = .ok fragment → p.compileAt deeper depth = .ok fragment
  | .leaf condition, h => by
    rw [Predicate.compileAt_leaf_ok] at h ⊢
    exact ⟨Nat.le_trans h.1 hd, h.2⟩
  | .group connective children, h => by
    rw [Predicate.compileAt_group_ok] at h ⊢
    obtain ⟨hl, members, hm, he⟩ := h
    exact ⟨Nat.le_trans hl hd, members,
      Predicate.compileAllAt_deeper hd (depth + 1) children hm, he⟩
theorem Predicate.compileAllAt_deeper (hd : limit ≤ deeper) (depth : Nat) :
    (children : List Predicate) → Predicate.compileAllAt limit depth children = .ok members →
      Predicate.compileAllAt deeper depth children = .ok members
  | [], h => h
  | child :: rest, h => by
    rw [Predicate.compileAllAt_cons_ok] at h ⊢
    obtain ⟨first, hf, others, ho, he⟩ := h
    exact ⟨first, Predicate.compileAt_deeper hd depth child hf, others,
      Predicate.compileAllAt_deeper hd depth rest ho, he⟩
end

section
variable {limit deeper : Nat} (hd : limit ≤ deeper)
include hd

theorem Predicate.compile_deeper {p : Predicate} (h : p.compile limit = .ok fragment) :
    p.compile deeper = .ok fragment :=
  Predicate.compileAt_deeper hd 1 p h

theorem CaseClause.compileBranches_deeper {clauses : List CaseClause}
    (h : CaseClause.compileBranches limit clauses = .ok fragment) :
    CaseClause.compileBranches deeper clauses = .ok fragment := by
  induction clauses generalizing fragment with
  | nil => exact h
  | cons clause rest ih =>
    cases clause with
    | otherwise outcome => exact ih h
    | branch condition outcome =>
      rw [CaseClause.compileBranches_branch_ok] at h ⊢
      obtain ⟨first, hf, others, ho, he⟩ := h
      exact ⟨first, Predicate.compile_deeper hd hf, others, ih ho, he⟩

theorem Column.compile_deeper {column : Column} (h : column.compile limit name = .ok fragment) :
    column.compile deeper name = .ok fragment := by
  cases column with
  | raw sql => exact h
  | cased clauses =>
    rw [Column.compile_cased_ok] at h ⊢
    obtain ⟨branches, hb, he⟩ := h
    exact ⟨branches, CaseClause.compileBranches_deeper hd hb, he⟩

theorem Composition.selectList_deeper {options : StatementOptions} {composition : Composition}
    (h : composition.selectList { options with maxDepth := limit } = .ok fragment) :
    composition.selectList { options with maxDepth := deeper } = .ok fragment := by
  rw [Composition.selectList_ok] at h ⊢
  obtain ⟨columns, hc, he⟩ := h
  exact ⟨columns, hc.imp fun _ _ => Column.compile_deeper hd, he⟩

theorem Composition.conditions_deeper {options : StatementOptions} {parameters : Parameters}
    (h : Composition.conditions { options with maxDepth := limit } parameters = .ok fragments) :
    Composition.conditions { options with maxDepth := deeper } parameters = .ok fragments := by
  rw [Composition.conditions_ok] at h ⊢
  obtain ⟨dates, hd', filters, hf, he⟩ := h
  -- the date filter does not look at the limit
  have hdates : parameters.interval.toList.Forall₂ (fun interval fragment =>
      interval.compile { options with maxDepth := deeper } = .ok fragment) dates :=
    hd'.imp fun interval _ hi => by cases interval <;> exact hi
  exact ⟨dates, hdates, filters, hf.imp fun _ _ => Predicate.compile_deeper hd, he⟩

theorem Composition.compile_deeper {options : StatementOptions} {composition : Composition}
    {schema : String} {parameters : Parameters}
    (h : composition.compile { options with maxDepth := limit } schema parameters = .ok fragment) :
    composition.compile { options with maxDepth := deeper } schema parameters = .ok fragment := by
  rw [Composition.compile_ok] at h ⊢
  obtain ⟨columns, hc, conditions, hw, he⟩ := h
  exact ⟨columns, Composition.selectList_deeper hd hc, conditions,
    Composition.conditions_deeper hd hw, he⟩

end

end DeclarativeSql
