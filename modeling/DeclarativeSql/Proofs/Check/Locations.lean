import Mathlib.Data.List.Nodup
import DeclarativeSql.Proofs.Check.Apart

/-!
# Every problem has a location of its own

`problems_have_locations_of_their_own`: the kind of a problem and the text of its place tell it
from the other problems of one check. Columns may have any name, even one that looks like a path.
Their problems are told apart by the last `sql` or `cases` of the text, in front of which the whole
name stands (`Under.unique`).
-/

namespace DeclarativeSql

open Place (Below EndsIn innerNames outerNames)

namespace Problem

/-- What a reader of the problem is told about its whereabouts. -/
def location? (problem : Problem) : Option String :=
  problem.place?.map Place.text

def mark (problem : Problem) : Kind × Option String :=
  (problem.kind, problem.location?)

theorem location?_eq {problem : Problem} {place : Place} (h : problem.place? = some place) :
    problem.location? = some place.text := by
  rw [location?, h, Option.map_some]

end Problem

variable {names names' : List String} {outer : Place} {problem : Problem}
  {problems others : List Problem}

-- ---------------------------------------------------------------------------
-- Locations
-- ---------------------------------------------------------------------------

/-- The place of the problem lies below one whose text ends in an outer name. -/
def Under (stem name : String) (problem : Problem) : Prop :=
  ∃ outer place, EndsIn stem name outer.text ∧ problem.place? = some place ∧
    Below innerNames outer place

/-- The location of a problem tells the outer name and what stands in front of it. -/
theorem Under.unique {stem stem' name name' : String} {first second : Problem}
    (h : Under stem name first) (h' : Under stem' name' second)
    (he : first.location? = second.location?) : stem = stem' ∧ name = name' := by
  obtain ⟨outer, place, ho, hp, hb⟩ := h
  obtain ⟨outer', place', ho', hp', hb'⟩ := h'
  rw [Problem.location?_eq hp, Problem.location?_eq hp', Option.some.injEq] at he
  exact ho.unique ((hb.text_inj hb' ho ho' he).1 ▸ ho')

/-- Problems with marks of their own, all of them below outer names of a list. -/
structure Marked (names : List String) (problems : List Problem) : Prop where
  under : ∀ problem ∈ problems, ∃ stem, ∃ name ∈ names, Under stem name problem
  nodup : (problems.map Problem.mark).Nodup

theorem Located.under {stem name : String} (h : Located innerNames outer problems)
    (ho : EndsIn stem name outer.text) : ∀ problem ∈ problems, Under stem name problem := by
  intro problem hm
  obtain ⟨place, hp, hb⟩ := h.below problem hm
  exact ⟨outer, place, ho, hp, hb⟩

/-- Problems below one outer name are apart in their texts, too. -/
theorem Located.marked {stem name : String} (h : Located innerNames outer problems)
    (ho : EndsIn stem name outer.text) : Marked [name] problems := by
  refine ⟨fun problem hm => ⟨stem, name, List.mem_cons_self, h.under ho problem hm⟩,
    List.pairwise_map.mpr (h.apart.imp_of_mem fun {first second} hf hs ha he => ?_)⟩
  obtain ⟨place, hp, hb⟩ := h.below first hf
  obtain ⟨place', hp', hb'⟩ := h.below second hs
  obtain ⟨hk, hl⟩ := Prod.mk.inj he
  rw [Problem.location?_eq hp, Problem.location?_eq hp', Option.some.injEq] at hl
  exact ha hk (by rw [hp, hp', (hb.text_inj hb' ho ho hl).2 rfl])

theorem disjoint_marks
    (h : ∀ first ∈ problems, ∀ second ∈ others, first.location? ≠ second.location?) :
    List.Disjoint (problems.map Problem.mark) (others.map Problem.mark) := by
  intro mark hf hs
  obtain ⟨first, hm, rfl⟩ := List.mem_map.mp hf
  obtain ⟨second, hm', he⟩ := List.mem_map.mp hs
  exact h first hm second hm' (Prod.mk.inj he).2.symm

theorem Marked.mono (h : Marked names problems) (hn : names ⊆ names') : Marked names' problems := by
  refine ⟨fun problem hm => ?_, h.nodup⟩
  obtain ⟨stem, name, hm, hu⟩ := h.under problem hm
  exact ⟨stem, name, hn hm, hu⟩

theorem Marked.append (h : Marked names problems) (h' : Marked names' others)
    (hd : ∀ name ∈ names, name ∉ names') : Marked (names ++ names') (problems ++ others) := by
  refine ⟨List.forall_mem_append.mpr ⟨fun problem hm => ?_, fun problem hm => ?_⟩, ?_⟩
  · obtain ⟨stem, name, hn, hu⟩ := h.under problem hm
    exact ⟨stem, name, List.mem_append_left names' hn, hu⟩
  · obtain ⟨stem, name, hn, hu⟩ := h'.under problem hm
    exact ⟨stem, name, List.mem_append_right names hn, hu⟩
  · rw [List.map_append]
    refine h.nodup.append h'.nodup (disjoint_marks fun first hf second hs he => ?_)
    obtain ⟨stem, name, hn, hu⟩ := h.under first hf
    obtain ⟨stem', name', hn', hu'⟩ := h'.under second hs
    exact hd name hn ((hu.unique hu' he).2 ▸ hn')

-- ---------------------------------------------------------------------------
-- Columns
-- ---------------------------------------------------------------------------

theorem Column.partName_mem (column : Column) : column.partName ∈ ["sql", "cases"] := by
  cases column <;> simp [Column.partName]

namespace Columns

/-- Where the columns of a composition stand. -/
def wholePlace : Place :=
  .member (.root "composition") "columns"

def entryProblems (limit : Nat) (entry : String × Column) : List Problem :=
  Check.notEmpty (.nameOf wholePlace) entry.1 ++
    entry.2.problems limit (.member wholePlace entry.1)

theorem endsIn_wholePlace : EndsIn "composition" "columns" wholePlace.text :=
  ⟨rfl, by decide⟩

theorem endsIn_nameOf : EndsIn "composition" "columns name" (Place.nameOf wholePlace).text :=
  ⟨by decide, by decide⟩

theorem endsIn_column (name : String) (column : Column) :
    EndsIn (wholePlace.text ++ "." ++ name) column.partName
      (Place.member (.member wholePlace name) column.partName).text := by
  have hn : ["sql", "cases"] ⊆ outerNames := by decide
  exact ⟨rfl, hn column.partName_mem⟩

theorem located_name (text : String) :
    Located innerNames (.nameOf wholePlace) (Check.notEmpty (.nameOf wholePlace) text) :=
  .single_if rfl .self

/-- The problems of an entry tell its name, but for the one that says that it has none. -/
theorem entry_of_mem {limit : Nat} {entry : String × Column}
    (h : problem ∈ entryProblems limit entry) :
    entry.1 = "" ∧ Under "composition" "columns name" problem ∨
      ∃ name ∈ ["sql", "cases"], Under (wholePlace.text ++ "." ++ entry.1) name problem := by
  rcases List.mem_append.mp h with h | h
  · refine .inl ⟨?_, (located_name entry.1).under endsIn_nameOf problem h⟩
    by_contra hn
    rw [Check.notEmpty, if_neg hn] at h
    cases h
  · exact .inr ⟨entry.2.partName, entry.2.partName_mem,
      (entry.2.located limit _).under (endsIn_column entry.1 entry.2) problem h⟩

theorem eq_of_location_eq {limit : Nat} {entry entry' : String × Column}
    {first second : Problem} (h : first ∈ entryProblems limit entry)
    (h' : second ∈ entryProblems limit entry') (he : first.location? = second.location?) :
    entry.1 = entry'.1 := by
  have hother : "columns name" ∉ ["sql", "cases"] := by decide
  rcases entry_of_mem h with ⟨hn, hu⟩ | ⟨name, hm, hu⟩
  · rcases entry_of_mem h' with ⟨hn', -⟩ | ⟨name', hm', hu'⟩
    · rw [hn, hn']
    · exact absurd ((hu.unique hu' he).2 ▸ hm') hother
  · rcases entry_of_mem h' with ⟨-, hu'⟩ | ⟨name', hm', hu'⟩
    · exact absurd ((hu.unique hu' he).2 ▸ hm) hother
    · exact (String.append_right_inj _).mp (hu.unique hu' he).1

theorem marked_entryProblems (limit : Nat) (entry : String × Column) :
    Marked ["columns name", "sql", "cases"] (entryProblems limit entry) := by
  have hn := (located_name entry.1).marked endsIn_nameOf
  have hc := (entry.2.located limit (.member wholePlace entry.1)).marked
    (endsIn_column entry.1 entry.2)
  have hp : [entry.2.partName] ⊆ ["sql", "cases"] :=
    List.cons_subset.mpr ⟨entry.2.partName_mem, List.nil_subset _⟩
  exact hn.append (hc.mono hp) (by decide)

theorem marked (limit : Nat) (columns : Columns) :
    Marked ["columns", "columns name", "sql", "cases"] (columns.problems limit wholePlace) := by
  have hsize : Located innerNames wholePlace (Check.atLeast 1 wholePlace columns.size ++
      Check.atMost Check.maxColumns wholePlace columns.size) :=
    (Located.single_if rfl .self).pair (.single_if rfl .self) nofun
  have hentries : Marked ["columns name", "sql", "cases"]
      (columns.entries.flatMap (entryProblems limit)) := by
    refine ⟨fun problem hm => ?_, ?_⟩
    · obtain ⟨entry, -, hm⟩ := List.mem_flatMap.mp hm
      exact (marked_entryProblems limit entry).under problem hm
    · rw [List.map_flatMap, List.nodup_flatMap]
      refine ⟨fun entry _ => (marked_entryProblems limit entry).nodup, ?_⟩
      refine (List.pairwise_map.mp columns.distinct).imp fun hn => ?_
      exact disjoint_marks fun first hf second hs he => hn (eq_of_location_eq hf hs he)
  exact (hsize.marked endsIn_wholePlace).append hentries (by decide)

end Columns

-- ---------------------------------------------------------------------------
-- Documents
-- ---------------------------------------------------------------------------

theorem Composition.marked (limit : Nat) (composition : Composition) :
    Marked outerNames (composition.problems limit) := by
  let tablePlace := Place.member (.root "composition") "table"
  let filtersPlace := Place.member (.member (.root "composition") "parameters") "rowFilters"
  have ht : Located innerNames tablePlace (Check.notBlank tablePlace composition.table) :=
    .single_if rfl .self
  have htable : EndsIn "composition" "table" tablePlace.text := ⟨rfl, by decide⟩
  have hfilters : EndsIn "composition.parameters" "rowFilters" filtersPlace.text :=
    ⟨by decide, by decide⟩
  exact ((ht.marked htable).append (composition.columns.marked limit) (by decide)).append
    ((RowFilter.located_problemsOfAll limit filtersPlace composition.parameters.rowFilters).marked
      hfilters) (by decide)

theorem Overrides.marked (limit : Nat) (overrides : Overrides) :
    Marked ["rowFilters"] (overrides.problems limit) := by
  have ho : EndsIn "parameters" "rowFilters"
      (Place.member (.root "parameters") "rowFilters").text := ⟨rfl, by decide⟩
  exact (RowFilter.located_problemsOfAll limit _ _).marked ho

/-- A location inside a composition has a dot. -/
theorem Under.location_ne {stem name text : String} (h : Under stem name problem)
    (ht : '.' ∉ text.toList) : problem.location? ≠ some text := by
  obtain ⟨outer, place, ho, hp, hb⟩ := h
  rw [Problem.location?_eq hp, ne_eq, Option.some.injEq]
  rintro rfl
  exact ht (hb.mem_text (by simp [ho.text_eq]))

theorem nodup_marks_single_if {c : Prop} [Decidable c] :
    ((if c then [problem] else []).map Problem.mark).Nodup := by
  split
  · exact List.nodup_singleton _
  · exact List.nodup_nil

theorem Source.nodup_marks (limit : Nat) (source : Source) :
    ((source.problems limit).map Problem.mark).Nodup := by
  cases source with
  | raw sql => exact nodup_marks_single_if
  | composition content => exact (content.marked limit).nodup

/-- No problem of a source has the location of a description. -/
theorem Source.location_ne (limit : Nat) (source : Source) :
    ∀ problem ∈ source.problems limit, problem.location? ≠ some "description" := by
  intro problem hm
  cases source with
  | raw sql =>
    rw [eq_of_mem_if hm]
    decide
  | composition content =>
    obtain ⟨stem, name, -, hu⟩ := (content.marked limit).under problem hm
    exact hu.location_ne (by decide)

theorem Document.nodup_marks (limit : Nat) (document : Document) :
    ((document.problems limit).map Problem.mark).Nodup := by
  let described := document.description.elim [] (Check.notEmpty (.root "description"))
  have hn : (described.map Problem.mark).Nodup := by
    cases hd : document.description with
    | none => simp [described, hd]
    | some text =>
      simp only [described, hd, Option.elim_some]
      exact nodup_marks_single_if
  have hl : ∀ problem ∈ described, problem.location? = some "description" := by
    intro problem hm
    cases hd : document.description with
    | none => simp [described, hd] at hm
    | some text =>
      simp only [described, hd, Option.elim_some] at hm
      rw [eq_of_mem_if hm]
      rfl
  have happend {sourced : List Problem} (hs : (sourced.map Problem.mark).Nodup)
      (hne : ∀ problem ∈ sourced, problem.location? ≠ some "description") :
      ((sourced ++ described).map Problem.mark).Nodup := by
    rw [List.map_append]
    refine hs.append hn (disjoint_marks fun first hf second hm he => ?_)
    exact hne first hf (he.trans (hl second hm))
  rw [Document.problems]
  cases document.source? with
  | none => exact happend (List.nodup_singleton _) (List.forall_mem_singleton.mpr nofun)
  | some source => exact happend (source.nodup_marks limit) (source.location_ne limit)

theorem problems_have_locations_of_their_own (limit : Nat) :
    (∀ document : Document, ((document.problems limit).map Problem.mark).Nodup) ∧
    (∀ composition : Composition, ((composition.problems limit).map Problem.mark).Nodup) ∧
    ∀ overrides : Overrides, ((overrides.problems limit).map Problem.mark).Nodup :=
  ⟨Document.nodup_marks limit, fun composition => (composition.marked limit).nodup,
    fun overrides => (overrides.marked limit).nodup⟩

-- a name that goes on like the path of another column
example :
    (Composition.problems 64
      { table := "t", columns := .ofEntries [("a", .cased []), ("a.cases", .raw "")] }).map
        Problem.mark =
      [(.tooFew, some "composition.columns.a.cases"),
       (.empty, some "composition.columns.a.cases.sql")] := by
  decide

end DeclarativeSql
