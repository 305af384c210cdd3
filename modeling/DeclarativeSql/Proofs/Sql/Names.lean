import DeclarativeSql.Proofs.Sql.Literal
import DeclarativeSql.Proofs.Sql.Quoting

/-!
# Reading a name

A name in a statement is a row of identifiers with dots between them. An identifier is plain, or
it stands between double quotes and each double quote of its own is written twice. `identifiers`
says which identifiers stand for a name: the parts of a dotted name, and any other name as a
whole. What is written for a name reads back as these (`scanNames?_quoteIfNeeded`), from which the
name can be told (`quoting_is_lossless`). The dot between a schema and a table reads like a dot of
theirs (`scanNames?_qualified`), so only names without dots are sure to be told apart
(`qualified_inj_of_not_isDotted`).
-/

namespace DeclarativeSql.Sql

variable {s rest part name : List Char} {parts : List (List Char)}

def isNameStart (c : Char) : Bool :=
  c.isAlpha || c = '_'

def isNameChar (c : Char) : Bool :=
  c.isAlphanum || c = '_' || c = '$'

/-- The identifier at the front of a text, and what follows it. -/
def scanIdentifier? : List Char → Option (List Char × List Char)
  | [] => none
  | c :: rest =>
    if c = '"' then scanEnclosed? '"' rest
    else if isNameStart c then some (c :: rest.takeWhile isNameChar, rest.dropWhile isNameChar)
    else none

theorem scanEnclosed?_length {mark : Char} (h : scanEnclosed? mark s = some (part, rest)) :
    rest.length < s.length := by
  fun_induction scanEnclosed? mark s generalizing part rest with
  | case1 => cases h
  | case2 =>
    cases h
    exact Nat.zero_lt_one
  | case3 => cases h
  | case4 c d tail _ ih =>
    obtain ⟨⟨value, left⟩, hv, he⟩ := Option.map_eq_some_iff.mp h
    cases he
    exact Nat.lt_succ_of_lt (ih hv)
  | case5 c tail _ ih =>
    obtain ⟨⟨value, left⟩, hv, he⟩ := Option.map_eq_some_iff.mp h
    cases he
    exact Nat.lt_succ_of_lt (Nat.lt_succ_of_lt (ih hv))
  | case6 =>
    cases h
    exact Nat.lt_succ_self _

theorem scanIdentifier?_length (h : scanIdentifier? s = some (part, rest)) :
    rest.length < s.length := by
  cases s with
  | nil => cases h
  | cons c tail =>
    rw [scanIdentifier?] at h
    split at h
    · exact Nat.lt_succ_of_lt (scanEnclosed?_length h)
    · split at h
      · cases h
        exact Nat.lt_succ_of_le (List.dropWhile_suffix isNameChar).length_le
      · cases h

/-- The identifiers at the front of a text, with dots between them, and what follows the last of
them. -/
def scanNames? (s : List Char) : Option (List (List Char) × List Char) :=
  match h : scanIdentifier? s with
  | none => none
  | some (name, '.' :: rest) =>
    have : rest.length < s.length := Nat.lt_of_succ_lt (scanIdentifier?_length h)
    (scanNames? rest).map fun (names, rest) => (name :: names, rest)
  | some (name, rest) => some ([name], rest)
termination_by s.length

theorem scanNames?_last (h : scanIdentifier? s = some (part, rest)) (hr : rest.head? ≠ some '.') :
    scanNames? s = some ([part], rest) := by
  rw [scanNames?]
  split
  · next hs =>
    rw [h] at hs
    cases hs
  · next hs =>
    rw [h] at hs
    cases hs
    exact absurd rfl hr
  · next hs =>
    rw [h] at hs
    cases hs
    rfl

theorem scanNames?_dot (h : scanIdentifier? s = some (part, '.' :: rest)) :
    scanNames? s = (scanNames? rest).map fun (names, rest) => (part :: names, rest) := by
  rw [scanNames?]
  split
  · next hs =>
    rw [h] at hs
    cases hs
  · next hs =>
    rw [h] at hs
    cases hs
    rfl
  · next hn hs =>
    rw [h] at hs
    cases hs
    exact absurd rfl (hn rest)

-- ---------------------------------------------------------------------------
-- Quoted parts
-- ---------------------------------------------------------------------------

/-- Nothing that an identifier in front would go on with. -/
def Stops (rest : List Char) : Prop :=
  ∀ c ∈ rest.head?, isNameChar c = false ∧ c ≠ '"'

theorem stops_nil : Stops [] := by
  simp [Stops]

theorem stops_cons {c : Char} : Stops (c :: rest) ↔ isNameChar c = false ∧ c ≠ '"' := by
  simp [Stops]

theorem Stops.takeWhile (h : Stops rest) : rest.takeWhile isNameChar = [] := by
  cases rest with
  | nil => rfl
  | cons c rest => exact List.takeWhile_cons_of_neg (by simp [(stops_cons.mp h).1])

theorem Stops.dropWhile (h : Stops rest) : rest.dropWhile isNameChar = rest := by
  cases rest with
  | nil => rfl
  | cons c rest => exact List.dropWhile_cons_of_neg (by simp [(stops_cons.mp h).1])

theorem PlainIdentifier.isNameChar (h : PlainIdentifier part) :
    ∀ c ∈ part, isNameChar c = true := by
  cases part with
  | nil => exact List.forall_mem_nil _
  | cons c tail =>
    rw [List.forall_mem_cons]
    refine ⟨?_, fun d hd => ?_⟩
    · rcases h.1 with hc | rfl
      · simp [Sql.isNameChar, Char.isAlphanum, hc]
      · rfl
    · simp [Sql.isNameChar, or_assoc, h.2 d hd]

theorem scanIdentifier?_plain (h : PlainIdentifier part) (hr : Stops rest) :
    scanIdentifier? (part ++ rest) = some (part, rest) := by
  cases part with
  | nil => cases h
  | cons c tail =>
    have hs : isNameStart c = true := by simp [isNameStart, h.1]
    have hq : c ≠ '"' := by
      rintro rfl
      exact absurd hs (by decide)
    have hp := (List.forall_mem_cons.mp h.isNameChar).2
    rw [List.cons_append, scanIdentifier?, if_neg hq, if_pos hs, List.takeWhile_append_of_pos hp,
      List.dropWhile_append_of_pos hp, hr.takeWhile, hr.dropWhile, List.append_nil]

theorem scanIdentifier?_quoteDouble (hr : Stops rest) :
    scanIdentifier? (quoteDouble part ++ rest) = some (part, rest) := by
  have hh : rest.head? ≠ some '"' := fun hh => (hr _ hh).2 rfl
  rw [quoteDouble, enclose, List.append_assoc, List.cons_append, scanIdentifier?, if_pos rfl]
  exact scanEnclosed?_double part hh

theorem scanIdentifier?_quotePart (hr : Stops rest) :
    scanIdentifier? (quotePart part ++ rest) = some (part, rest) := by
  rw [quotePart]
  split
  · next hp => exact scanIdentifier?_plain (isPlain_iff.mp hp) hr
  · exact scanIdentifier?_quoteDouble hr

/-- Quoted parts with dots between them read back as these parts. -/
theorem scanNames?_join (hn : parts ≠ []) (hr : Stops rest) (hd : rest.head? ≠ some '.') :
    scanNames? (Text.join '.' (parts.map quotePart) ++ rest) = some (parts, rest) := by
  induction parts with
  | nil => exact absurd rfl hn
  | cons part parts ih =>
    cases parts with
    | nil => exact scanNames?_last (scanIdentifier?_quotePart hr) hd
    | cons next parts =>
      have hs : Stops ('.' :: (Text.join '.' ((next :: parts).map quotePart) ++ rest)) :=
        stops_cons.mpr (by decide)
      rw [List.map_cons, List.map_cons, Text.join, List.append_assoc, List.cons_append,
        ← List.map_cons, scanNames?_dot (scanIdentifier?_quotePart hs),
        ih (List.cons_ne_nil next parts)]
      · rfl
      · exact List.cons_ne_nil (quotePart next) _

-- ---------------------------------------------------------------------------
-- Names
-- ---------------------------------------------------------------------------

/-- A name with dots, whose parts are not empty, and without a double quote. -/
def IsDotted (name : List Char) : Prop :=
  '.' ∈ name ∧ '"' ∉ name ∧ [] ∉ Text.split '.' name

instance : DecidablePred IsDotted :=
  fun _ => inferInstanceAs (Decidable (_ ∧ _ ∧ _))

/-- The identifiers that stand for a name in a statement. -/
def identifiers (name : List Char) : List (List Char) :=
  if IsDotted name then Text.split '.' name else [name]

theorem identifiers_ne_nil (name : List Char) : identifiers name ≠ [] := by
  rw [identifiers]
  split
  · exact Text.split_ne_nil '.' name
  · exact List.cons_ne_nil name []

theorem one_lt_length_identifiers (h : IsDotted name) : 1 < (identifiers name).length := by
  obtain ⟨first, second, he⟩ := List.append_of_mem h.1
  have hf := List.length_pos_iff.mpr (Text.split_ne_nil '.' first)
  have hs := List.length_pos_iff.mpr (Text.split_ne_nil '.' second)
  rw [identifiers, if_pos h, he, Text.split_append_cons, List.length_append]
  omega

theorem identifiers_eq_split (hq : '"' ∉ name) (hp : [] ∉ Text.split '.' name) :
    identifiers name = Text.split '.' name := by
  rw [identifiers]
  split
  · rfl
  · next hn =>
    -- Nothing but a dot is missing, and without one the name is its only part.
    rw [Text.split_of_notMem fun hd => hn ⟨hd, hq, hp⟩]

theorem identifiers_of_not_isDotted (h : ¬ IsDotted name) : identifiers name = [name] :=
  if_neg h

-- an empty part keeps a name together
example : identifiers ['a', '.', '.', 'b'] = [['a', '.', '.', 'b']] := by
  decide

theorem quote_notMem_of_all_isPlain (h : (Text.split '.' name).all isPlain = true) :
    '"' ∉ name := by
  intro hq
  rw [← Text.join_split '.' name] at hq
  rcases Text.mem_join hq with hq | ⟨part, hm, hq⟩
  · exact absurd hq (by decide)
  · have hp := isPlain_iff.mp (List.all_eq_true.mp h part hm)
    exact absurd (hp.isNameChar _ hq) (by decide)

/-- The identifiers that stand for a name are written one by one, with dots between them. -/
theorem quoteIfNeeded_eq_join (name : List Char) :
    quoteIfNeeded name = Text.join '.' ((identifiers name).map quotePart) := by
  rw [quoteIfNeeded]
  split
  · next hp =>
    have hn : [] ∉ Text.split '.' name := by
      intro hn
      cases List.all_eq_true.mp hp [] hn
    rw [identifiers_eq_split (quote_notMem_of_all_isPlain hp) hn,
      ← (join_quotePart (Text.split '.' name)).2.mpr hp, Text.join_split]
  · next hp =>
    split
    · next hn =>
      have hd : ¬ IsDotted name := by
        rintro ⟨-, hq, he⟩
        simp [hq, he] at hn
      have hs : ¬ isPlain name = true := by
        intro hs
        rw [Text.split_of_notMem (isPlain_iff.mp hs).dot_notMem] at hp
        simp [hs] at hp
      rw [identifiers_of_not_isDotted hd, List.map_singleton, Text.join, quotePart, if_neg hs]
    · next hn =>
      rw [Bool.or_eq_true, not_or] at hn
      rw [identifiers_eq_split]
      · simpa using hn.1
      · simpa using hn.2

/-- What is written for a name reads back as the identifiers that stand for it. -/
theorem scanNames?_quoteIfNeeded (name : List Char) (hr : Stops rest)
    (hd : rest.head? ≠ some '.') :
    scanNames? (quoteIfNeeded name ++ rest) = some (identifiers name, rest) := by
  rw [quoteIfNeeded_eq_join]
  exact scanNames?_join (identifiers_ne_nil name) hr hd

theorem identifiers_eq_ite (name : List Char) :
    identifiers name =
      if '"' ∉ name ∧ [] ∉ Text.split '.' name then Text.split '.' name else [name] := by
  split
  · next h => exact identifiers_eq_split h.1 h.2
  · next h => exact identifiers_of_not_isDotted fun hd => h hd.2

/-- The identifiers that stand for a name give it back, with their dots. -/
theorem join_identifiers (name : List Char) : Text.join '.' (identifiers name) = name := by
  rw [identifiers]
  split
  · exact Text.join_split '.' name
  · rfl

theorem identifiers_injective : Function.Injective identifiers :=
  Function.LeftInverse.injective join_identifiers

theorem scanNames?_whole (name : List Char) :
    scanNames? (quoteIfNeeded name) = some (identifiers name, []) := by
  have h := scanNames?_quoteIfNeeded name stops_nil (by simp)
  rwa [List.append_nil] at h

theorem quoteIfNeeded_injective : Function.Injective quoteIfNeeded := by
  intro name other h
  have hs := (scanNames?_whole name).symm.trans (h ▸ scanNames?_whole other)
  exact identifiers_injective (congrArg Prod.fst (Option.some.inj hs))

theorem quoting_is_lossless :
    (∀ name : List Char, scanNames? (quoteIfNeeded name) =
      some (if '"' ∉ name ∧ [] ∉ name.splitOn '.' then name.splitOn '.' else [name], [])) ∧
    Function.Injective quoteIfNeeded ∧
    ∀ name : List Char, quoteIfNeeded name = name ↔
      ∀ part ∈ name.splitOn '.', PlainIdentifier part := by
  refine ⟨fun name => ?_, quoteIfNeeded_injective, fun name => ?_⟩
  · rw [scanNames?_whole, identifiers_eq_ite, Text.split_eq_splitOn]
  · rw [eq_comm, eq_quoteIfNeeded_iff, List.all_eq_true, Text.split_eq_splitOn]
    simp only [isPlain_iff]

-- ---------------------------------------------------------------------------
-- Two names
-- ---------------------------------------------------------------------------

/-- A schema and a table with a dot between them. -/
def qualified (schema table : List Char) : List Char :=
  quoteIfNeeded schema ++ '.' :: quoteIfNeeded table

theorem qualified_eq_join (schema table : List Char) :
    qualified schema table =
      Text.join '.' ((identifiers schema ++ identifiers table).map quotePart) := by
  have hs := identifiers_ne_nil schema
  have ht := identifiers_ne_nil table
  rw [qualified, quoteIfNeeded_eq_join, quoteIfNeeded_eq_join, List.map_append,
    Text.join_append (by simpa using hs) (by simpa using ht)]

theorem scanNames?_qualified (schema table : List Char) (hr : Stops rest)
    (hd : rest.head? ≠ some '.') :
    scanNames? (qualified schema table ++ rest) =
      some (identifiers schema ++ identifiers table, rest) := by
  rw [qualified_eq_join]
  exact scanNames?_join (List.append_ne_nil_of_left_ne_nil (identifiers_ne_nil schema) _) hr hd

theorem qualified_inj {schema table schema' table' : List Char} :
    qualified schema table = qualified schema' table' ↔
      identifiers schema ++ identifiers table = identifiers schema' ++ identifiers table' := by
  constructor
  · intro h
    have hs := scanNames?_qualified schema table stops_nil (by simp)
    have hs' := scanNames?_qualified schema' table' stops_nil (by simp)
    rw [h, hs'] at hs
    simpa using hs.symm
  · intro h
    rw [qualified_eq_join, qualified_eq_join, h]

/-- A schema and a table without dots are written like no other pair of names. -/
theorem qualified_inj_of_not_isDotted {schema table schema' table' : List Char}
    (hs : ¬ IsDotted schema) (ht : ¬ IsDotted table) :
    qualified schema table = qualified schema' table' ↔ schema = schema' ∧ table = table' := by
  rw [qualified_inj, identifiers_of_not_isDotted hs, identifiers_of_not_isDotted ht]
  constructor
  · intro h
    have hl := congrArg List.length h
    have hp := List.length_pos_iff.mpr (identifiers_ne_nil schema')
    have hp' := List.length_pos_iff.mpr (identifiers_ne_nil table')
    simp only [List.length_append, List.length_singleton] at hl
    by_cases hd : IsDotted schema'
    · have hd := one_lt_length_identifiers hd
      omega
    · by_cases hd' : IsDotted table'
      · have hd' := one_lt_length_identifiers hd'
        omega
      · rw [identifiers_of_not_isDotted hd, identifiers_of_not_isDotted hd'] at h
        simpa using h
  · rintro ⟨rfl, rfl⟩
    rw [identifiers_of_not_isDotted hs, identifiers_of_not_isDotted ht]

end DeclarativeSql.Sql
