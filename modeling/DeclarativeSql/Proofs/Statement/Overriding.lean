import DeclarativeSql.Proofs.Query.Merging
import DeclarativeSql.Statement.Compose

/-!
# Overrides as edits

`overrides_edit_the_defaults`: a request with overrides gets what a request without any gets
from the composition that has been edited to hold them. Overrides on top of an edit are
therefore overrides of their own, in which the later ones count.
-/

namespace DeclarativeSql

/-- The composition that has by default what the overrides ask for. -/
def Composition.edited (overrides : Overrides) (composition : Composition) : Composition :=
  { composition with
    parameters :=
      { interval :=
          match overrides.interval with
          | some interval => interval
          | none => composition.parameters.interval
        rowFilters :=
          RowFilter.merge (overrides.rowFilters.getD []) composition.parameters.rowFilters } }

/-- Two requests in one, the second on top of the first. -/
def Overrides.followedBy (first second : Overrides) : Overrides where
  interval :=
    match second.interval with
    | some interval => some interval
    | none => first.interval
  rowFilters := some (RowFilter.merge (second.rowFilters.getD []) (first.rowFilters.getD []))

theorem Overrides.apply_empty (parameters : Parameters) :
    ({} : Overrides).apply parameters = parameters := by
  simp [Overrides.apply, RowFilter.merge]

theorem Composition.parameters_edited (overrides : Overrides) (composition : Composition) :
    (composition.edited overrides).parameters = overrides.apply composition.parameters := by
  rw [edited, Overrides.apply]
  cases overrides.interval <;> rfl

theorem Overrides.apply_apply (first second : Overrides) (parameters : Parameters) :
    second.apply (first.apply parameters) = (first.followedBy second).apply parameters := by
  have hinterval : second.interval.getD (first.interval.getD parameters.interval) =
      (first.followedBy second).interval.getD parameters.interval := by
    rw [followedBy]
    cases second.interval <;> rfl
  simp only [apply, hinterval, RowFilter.merge, mergeBy_assoc]
  rfl

/-- Composing looks at the defaults only through the parameters in force. -/
theorem Composition.compose_of_apply {composition other : Composition}
    {overrides others : Overrides} (options : StatementOptions) (schema : Option String)
    (hc : other = { composition with parameters := other.parameters })
    (ho : others.apply other.parameters = overrides.apply composition.parameters) :
    other.compose options schema others = composition.compose options schema overrides := by
  rw [compose, compose, ho, hc]
  rfl

section
variable (options : StatementOptions) (schema : Option String)

theorem Composition.compose_edited (overrides : Overrides) (composition : Composition) :
    (composition.edited overrides).compose options schema {} =
      composition.compose options schema overrides := by
  refine compose_of_apply options schema rfl ?_
  rw [Overrides.apply_empty, parameters_edited]

theorem Composition.compose_edited_overrides (first second : Overrides)
    (composition : Composition) :
    (composition.edited first).compose options schema second =
      composition.compose options schema (first.followedBy second) := by
  refine compose_of_apply options schema rfl ?_
  rw [parameters_edited, Overrides.apply_apply]

theorem overrides_edit_the_defaults :
    (∀ (overrides : Overrides) (query : Query),
      let edited := query.mapComposition (Composition.edited overrides)
      query.compose options schema overrides = edited.compose options schema {} ∧
        query.composeBound options schema overrides = edited.composeBound options schema {}) ∧
    ∀ (first second : Overrides) (query : Query),
      let edited := query.mapComposition (Composition.edited first)
      edited.compose options schema second =
          query.compose options schema (first.followedBy second) ∧
        edited.composeBound options schema second =
          query.composeBound options schema (first.followedBy second) := by
  constructor
  · rintro overrides ⟨sql | composition, description⟩
    · exact ⟨rfl, rfl⟩
    · simp only [Query.mapComposition, Query.compose, Query.composeBound,
        Composition.compose_edited, and_self]
  · rintro first second ⟨sql | composition, description⟩
    · exact ⟨rfl, rfl⟩
    · simp only [Query.mapComposition, Query.compose, Query.composeBound,
        Composition.compose_edited_overrides, and_self]

end

end DeclarativeSql
