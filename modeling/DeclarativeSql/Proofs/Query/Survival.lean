import DeclarativeSql.Proofs.Check.Accepted
import DeclarativeSql.Proofs.Wire.Documents

/-!
# Accepted queries survive writing

A query that was built rather than read may hold what no text yields. Its outcomes are not
`null` if the check accepts it, and its versions have 64 bits if its numbers read back; only
its timestamps remain to be asked for. `Query.survives` puts this together.
-/

namespace DeclarativeSql

-- ---------------------------------------------------------------------------
-- Numbers that read back
-- ---------------------------------------------------------------------------

theorem Number.ReadsBack.isWord {value : Int} (h : ReadsBack (.int value)) : IsWord value := by
  obtain ⟨_, _, hl⟩ := readNumber_eq_some.mp h
  exact isWord_of_ofLiteral? hl

/-- A version that reads back has 64 bits. -/
theorem Json.NumbersReadBack.version {n : Nat} (h : (Json.number (.int n)).NumbersReadBack) :
    n < Nat.pow 2 64 := by
  have := (h _ (List.mem_singleton_self _)).isWord.2
  omega

-- ---------------------------------------------------------------------------
-- Columns
-- ---------------------------------------------------------------------------

/-- Every item of a list without problems was checked somewhere. -/
theorem Check.items_problems {check : Place → α → List Problem} {place : Place} {start : Nat}
    {l : List α} (h : Check.items check place start l = []) :
    ∀ item ∈ l, ∃ place, check place item = [] := by
  induction l generalizing start with
  | nil => nofun
  | cons item rest ih =>
    obtain ⟨hi, hr⟩ := List.append_eq_nil_iff.mp h
    exact List.forall_mem_cons.mpr ⟨⟨_, hi⟩, ih hr⟩

theorem Outcome.survives_of_problems {outcome : Outcome} {place : Place}
    (h : outcome.problems place = []) : outcome.Survives := by
  cases outcome with
  | column name => trivial
  | value literal =>
    rintro rfl
    cases h

theorem CaseClause.survives_of_problems {clause : CaseClause} {place : Place}
    (h : clause.problems limit place = []) : clause.outcome.Survives := by
  cases clause with
  | branch condition outcome =>
    exact Outcome.survives_of_problems (List.append_eq_nil_iff.mp h).2
  | otherwise outcome => exact Outcome.survives_of_problems h

theorem Column.survives_of_problems {column : Column} {place : Place}
    (h : column.problems limit place = []) : column.Survives := by
  cases column with
  | raw sql => trivial
  | cased clauses =>
    intro clause hm
    obtain ⟨_, hc⟩ := Check.items_problems (List.append_eq_nil_iff.mp h).2 clause hm
    exact CaseClause.survives_of_problems hc

theorem Columns.survives_of_problems {columns : Columns} {place : Place}
    (h : columns.problems limit place = []) : columns.Survives := by
  intro entry hm
  have he := List.flatMap_eq_nil_iff.mp (List.append_eq_nil_iff.mp h).2 entry hm
  exact Column.survives_of_problems (List.append_eq_nil_iff.mp he).2

-- ---------------------------------------------------------------------------
-- Queries
-- ---------------------------------------------------------------------------

theorem FilterMetadata.survives_of_numbers {metadata : FilterMetadata}
    (h : metadata.toJson.NumbersReadBack) : metadata.Survives := by
  rintro version hv
  rw [toJson, Json.numbersReadBack_object, List.forall_mem_append, hv] at h
  exact (List.forall_mem_singleton.mp h.2).version

theorem RowFilter.survives_of_numbers {filter : RowFilter}
    (h : filter.toJson.NumbersReadBack) : filter.Survives := by
  rw [toJson, Json.numbersReadBack_object, List.forall_mem_cons] at h
  exact FilterMetadata.survives_of_numbers h.1

theorem CompositionMetadata.survives_of_numbers {metadata : CompositionMetadata}
    (h : metadata.toJson.NumbersReadBack) : metadata.Survives := by
  rw [toJson, Json.numbersReadBack_object] at h
  exact (h ("version", _) (by simp)).version

theorem Parameters.survives_of_numbers {parameters : Parameters}
    (h : parameters.toJson.NumbersReadBack)
    (hi : ∀ interval ∈ parameters.interval, interval.ReadsBack) : parameters.Survives := by
  refine ⟨hi, fun filter hm => ?_⟩
  rw [toJson, Json.numbersReadBack_object, List.forall_mem_cons, List.forall_mem_singleton,
    RowFilter.listToJson, Json.numbersReadBack_array, List.forall_mem_map] at h
  exact RowFilter.survives_of_numbers (h.2 filter hm)

theorem Composition.survives_of_problems {composition : Composition}
    (hp : composition.problems limit = []) (hn : composition.toJson.NumbersReadBack)
    (hi : ∀ interval ∈ composition.parameters.interval, interval.ReadsBack) :
    composition.Survives := by
  simp only [problems, List.append_eq_nil_iff] at hp
  rw [toJson, Json.numbersReadBack_object, List.forall_mem_append, List.forall_mem_append] at hn
  obtain ⟨⟨hmembers, -⟩, hmetadata⟩ := hn
  constructor
  · exact Columns.survives_of_problems hp.1.2
  · have hparameters := hmembers ("parameters", composition.parameters.toJson) (by simp)
    exact Parameters.survives_of_numbers hparameters hi
  · exact fun metadata hm => CompositionMetadata.survives_of_numbers <|
      (forall_memberIfSome Json.NumbersReadBack).mp hmetadata metadata hm

/-- The interval of the query is read as it is written. -/
def Query.IntervalReadsBack (query : Query) : Prop :=
  ∀ composition ∈ query.composition?, ∀ interval ∈ composition.parameters.interval,
    interval.ReadsBack

theorem Query.survives {query : Query} (hp : query.document.problems limit = [])
    (hn : query.toJson.NumbersReadBack) (hi : query.IntervalReadsBack) :
    query.document.Survives := by
  obtain ⟨sql | composition, description⟩ := query
  · nofun
  · rintro _ ⟨⟩
    rw [toJson, document, Document.toJson, Json.numbersReadBack_object, List.forall_mem_append,
      List.forall_mem_append] at hn
    exact Composition.survives_of_problems (List.append_eq_nil_iff.mp hp).1
      (hn.1.2 ("composition", _) (List.mem_singleton_self _)) (hi composition rfl)

end DeclarativeSql
