import DeclarativeSql.Check.Problem
import DeclarativeSql.Proofs.Text.Numerals
import DeclarativeSql.Proofs.Text.Pieces

/-!
# Places and their texts

A place lies below another when it is reached from there by indices and by names of a list. No
place is reached in two ways, so nothing lies below two items of a place
(`Below.index_unique`), nor below two of its members. The text of a place shows the steps to it
from the last one on, as long as these are indices and inner names. `Below.text_inj` reads them back
to the outer name in front of them. What stands in front of that name may be any text.
-/

namespace DeclarativeSql

namespace Place

def depth : Place → Nat
  | .root _ => 0
  | .member parent _ => parent.depth + 1
  | .item parent _ => parent.depth + 1
  | .nameOf parent => parent.depth + 1

/-- The place is the outer one, or it is reached from there by indices and the given names. -/
inductive Below (names : List String) (outer : Place) : Place → Prop
  | self : Below names outer outer
  | member : Below names outer place → name ∈ names → Below names outer (.member place name)
  | item : Below names outer place → Below names outer (.item place index)

-- ---------------------------------------------------------------------------
-- The tree of places
-- ---------------------------------------------------------------------------

variable {names names' : List String} {outer outer' inner place : Place}

theorem Below.depth_le (h : Below names outer place) : outer.depth ≤ place.depth := by
  induction h with
  | self => exact Nat.le_refl _
  | member _ _ ih => exact Nat.le_succ_of_le ih
  | item _ ih => exact Nat.le_succ_of_le ih

theorem Below.trans (h : Below names outer inner) (hn : names' ⊆ names)
    (h' : Below names' inner place) : Below names outer place := by
  induction h' with
  | self => exact h
  | member _ hm ih => exact ih.member (hn hm)
  | item _ ih => exact ih.item

/-- Of the places above a place only one has a given depth. -/
theorem Below.eq_of_depth_eq (h : Below names outer place) (h' : Below names' outer' place)
    (hd : outer.depth = outer'.depth) : outer = outer' := by
  induction h with
  | self =>
    cases h' with
    | self => rfl
    | member h' _ => exact absurd hd (Nat.ne_of_gt (Nat.lt_succ_of_le h'.depth_le))
    | item h' => exact absurd hd (Nat.ne_of_gt (Nat.lt_succ_of_le h'.depth_le))
  | member h _ ih =>
    cases h' with
    | self => exact absurd hd (Nat.ne_of_lt (Nat.lt_succ_of_le h.depth_le))
    | member h' _ => exact ih h'
  | item h ih =>
    cases h' with
    | self => exact absurd hd (Nat.ne_of_lt (Nat.lt_succ_of_le h.depth_le))
    | item h' => exact ih h'

/-- The first step from a place to one below it. -/
theorem Below.first_step (h : Below names outer place) :
    place = outer ∨ (∃ name ∈ names, Below names (.member outer name) place) ∨
      ∃ index, Below names (.item outer index) place := by
  induction h with
  | self => exact .inl rfl
  | @member place name h hm ih =>
    rcases ih with rfl | ⟨first, hf, ih⟩ | ⟨first, ih⟩
    · exact .inr (.inl ⟨name, hm, .self⟩)
    · exact .inr (.inl ⟨first, hf, ih.member hm⟩)
    · exact .inr (.inr ⟨first, ih.member hm⟩)
  | @item place index h ih =>
    rcases ih with rfl | ⟨first, hf, ih⟩ | ⟨first, ih⟩
    · exact .inr (.inr ⟨index, .self⟩)
    · exact .inr (.inl ⟨first, hf, ih.item⟩)
    · exact .inr (.inr ⟨first, ih.item⟩)

theorem Below.index_unique {index index' : Nat} (h : Below names (.item outer index) place)
    (h' : Below names' (.item outer index') place) : index = index' := by
  cases h.eq_of_depth_eq h' rfl
  rfl

/-- A place that is reached by some names only does not lie below a child with another name. -/
theorem Below.not_below_member {name : String} (h : Below names outer place)
    (hn : name ∉ names) : ¬ Below names' (.member outer name) place := by
  intro h'
  rcases h.first_step with rfl | ⟨first, hf, h⟩ | ⟨first, h⟩
  · exact absurd h'.depth_le (Nat.not_succ_le_self _)
  · cases h.eq_of_depth_eq h' rfl
    exact hn hf
  · cases h.eq_of_depth_eq h' rfl

-- ---------------------------------------------------------------------------
-- The last step of a text
-- ---------------------------------------------------------------------------

theorem dotted_inj {s s' name name' : String} (hn : '.' ∉ name.toList) (hn' : '.' ∉ name'.toList)
    (h : s ++ "." ++ name = s' ++ "." ++ name') : s = s' ∧ name = name' := by
  have ht := congrArg String.toList h
  simp only [String.toList_append, List.append_assoc] at ht
  have hp := (Text.append_cons_inj hn hn').mp ht
  exact ⟨String.toList_injective hp.1, String.toList_injective hp.2⟩

theorem indexed_inj {s s' : String} {index index' : Nat}
    (h : s ++ "[" ++ toString index ++ "]" = s' ++ "[" ++ toString index' ++ "]") :
    s = s' ∧ index = index' := by
  have hdigits (n : Nat) : '[' ∉ Nat.toDigits 10 n ++ [']'] := by
    simp [Text.notMem_toDigits (show '['.isDigit = false by decide) n]
  have ht := congrArg String.toList h
  simp only [String.toList_append, List.append_assoc, Text.toList_natText] at ht
  have hp := (Text.append_cons_inj (hdigits index) (hdigits index')).mp ht
  exact ⟨String.toList_injective hp.1,
    Text.toDigits_injective (List.append_cancel_right hp.2)⟩

theorem dotted_ne_indexed {s s' name : String} {index : Nat} (hn : ']' ∉ name.toList) :
    s ++ "." ++ name ≠ s' ++ "[" ++ toString index ++ "]" := by
  intro h
  have ht : s.toList ++ '.' :: name.toList = (s' ++ "[" ++ toString index).toList ++ [']'] := by
    simpa using congrArg String.toList h
  have hl : ('.' :: name.toList).getLast? = some ']' := by
    have he := congrArg List.getLast? ht
    rw [List.getLast?_concat, List.getLast?_append, List.getLast?_cons, Option.some_or] at he
    rw [List.getLast?_cons, he]
  rcases List.mem_cons.mp (List.mem_of_getLast? hl) with hc | hc
  · exact absurd hc (by decide)
  · exact hn hc

-- ---------------------------------------------------------------------------
-- Texts of places below
-- ---------------------------------------------------------------------------

/-- The names of the steps inside a clause or a row filter. -/
def innerNames : List String :=
  ["and", "or", "column", "operator", "value", "then", "default", "metadata", "identifier"]

/-- The last names in front of the steps inside a clause or a row filter. None of the inner names
is among them. -/
def outerNames : List String :=
  ["table", "columns", "columns name", "sql", "cases", "rowFilters"]

theorem plain_of_mem {name : String} (h : name ∈ innerNames ++ outerNames) :
    '.' ∉ name.toList ∧ ']' ∉ name.toList := by
  have hall : ∀ name ∈ innerNames ++ outerNames, '.' ∉ name.toList ∧ ']' ∉ name.toList := by
    decide
  exact hall name h

/-- A text that ends in an outer name behind some other text, the stem. -/
structure EndsIn (stem name text : String) : Prop where
  text_eq : text = stem ++ "." ++ name
  outer : name ∈ outerNames

theorem EndsIn.not_inner {stem name name' s : String} (h : EndsIn stem name (s ++ "." ++ name')) :
    name' ∉ innerNames := by
  intro hn
  have hdisjoint : ∀ name ∈ outerNames, name ∉ innerNames := by decide
  have he := dotted_inj (plain_of_mem (List.mem_append_left _ hn)).1
    (plain_of_mem (List.mem_append_right _ h.outer)).1 h.text_eq
  exact hdisjoint name h.outer (he.2 ▸ hn)

theorem EndsIn.ne_indexed {stem name s : String} {index : Nat} :
    ¬ EndsIn stem name (s ++ "[" ++ toString index ++ "]") :=
  fun h => dotted_ne_indexed (plain_of_mem (List.mem_append_right _ h.outer)).2 h.text_eq.symm

theorem EndsIn.unique {stem stem' name name' text : String} (h : EndsIn stem name text)
    (h' : EndsIn stem' name' text) : stem = stem' ∧ name = name' :=
  dotted_inj (plain_of_mem (List.mem_append_right _ h.outer)).1
    (plain_of_mem (List.mem_append_right _ h'.outer)).1 (h.text_eq.symm.trans h'.text_eq)

theorem Below.mem_text {c : Char} (h : Below names outer place) (hc : c ∈ outer.text.toList) :
    c ∈ place.text.toList := by
  induction h with
  | self => exact hc
  | member _ _ ih => simp [text, ih]
  | item _ ih => simp [text, ih]

/-- The text of a place shows the text of the outer place that it lies below, and the steps from
there. -/
theorem Below.text_inj {stem stem' name name' : String} {place place' : Place}
    (h : Below innerNames outer place) (h' : Below innerNames outer' place')
    (ho : EndsIn stem name outer.text) (ho' : EndsIn stem' name' outer'.text)
    (ht : place.text = place'.text) :
    outer.text = outer'.text ∧ (outer = outer' → place = place') := by
  have hplain {name : String} (hn : name ∈ innerNames) :=
    plain_of_mem (List.mem_append_left outerNames hn)
  induction h generalizing place' with
  | self =>
    cases h' with
    | self => exact ⟨ht, id⟩
    | member _ hn => exact absurd hn (ht ▸ ho).not_inner
    | item _ => exact absurd (ht ▸ ho) EndsIn.ne_indexed
  | member h hn ih =>
    cases h' with
    | self => exact absurd hn (ht ▸ ho').not_inner
    | member h' hn' =>
      obtain ⟨hp, rfl⟩ := dotted_inj (hplain hn).1 (hplain hn').1 ht
      obtain ⟨he, heq⟩ := ih h' hp
      exact ⟨he, fun hs => by rw [heq hs]⟩
    | item _ => exact absurd ht (dotted_ne_indexed (hplain hn).2)
  | item h ih =>
    cases h' with
    | self => exact absurd (ht ▸ ho') EndsIn.ne_indexed
    | member _ hn' => exact absurd ht.symm (dotted_ne_indexed (hplain hn').2)
    | item h' =>
      obtain ⟨hp, rfl⟩ := indexed_inj ht
      obtain ⟨he, heq⟩ := ih h' hp
      exact ⟨he, fun hs => by rw [heq hs]⟩

end Place

end DeclarativeSql
