import DeclarativeSql.Proofs.Text.Pieces
import DeclarativeSql.Sql.Dialect

/-!
# What quoting changes

Quoting leaves a text as it is or makes it longer. Texts in a row can therefore not make up for
each other: they are the same altogether only when each of them is (`Grows.append_inj`). A name
stays as it is when it is a plain name, and a literal when it holds no quote.
-/

namespace DeclarativeSql

namespace Sql

/-- The second text is the first, or it is longer. -/
def Grows (s t : List Char) : Prop :=
  s = t ∨ s.length < t.length

variable {s t s' t' : List Char}

namespace Grows

theorem refl (s : List Char) : Grows s s :=
  .inl rfl

theorem length_le (h : Grows s t) : s.length ≤ t.length := by
  rcases h with rfl | h
  · exact Nat.le_refl _
  · exact Nat.le_of_lt h

theorem append (hs : Grows s s') (ht : Grows t t') : Grows (s ++ t) (s' ++ t') := by
  rcases hs with rfl | hs
  · rcases ht with rfl | ht
    · exact .inl rfl
    · exact .inr (by simpa using ht)
  · have hl := ht.length_le
    exact .inr (by simp; omega)

theorem append_inj (hs : Grows s s') (ht : Grows t t') :
    s ++ t = s' ++ t' ↔ s = s' ∧ t = t' := by
  constructor
  · intro h
    have hl := congrArg List.length h
    rw [List.length_append, List.length_append] at hl
    rcases hs with rfl | hs
    · exact ⟨rfl, List.append_cancel_left h⟩
    · -- The second text is no shorter, so it cannot make up for a longer first one.
      have hle := ht.length_le
      omega
  · rintro ⟨rfl, rfl⟩
    rfl

end Grows

-- ---------------------------------------------------------------------------
-- Literals
-- ---------------------------------------------------------------------------

theorem double_cons (mark c : Char) (rest : List Char) :
    double mark (c :: rest) = (if c = mark then [c, c] else [c]) ++ double mark rest :=
  List.flatMap_cons

theorem double_char_grows (mark c : Char) : Grows [c] (if c = mark then [c, c] else [c]) := by
  split
  · exact .inr (by simp)
  · exact .refl [c]

theorem double_grows (mark : Char) (s : List Char) : Grows s (double mark s) := by
  induction s with
  | nil => exact .refl []
  | cons c rest ih =>
    rw [double_cons]
    exact (double_char_grows mark c).append ih

theorem eq_double_iff {mark : Char} {s : List Char} : s = double mark s ↔ mark ∉ s := by
  induction s with
  | nil => simp [double]
  | cons c rest ih =>
    rw [double_cons, ← List.singleton_append,
      (double_char_grows mark c).append_inj (double_grows mark rest), ih]
    by_cases hc : c = mark
    · simp [hc]
    · simp [hc, Ne.symm hc]

theorem enclose_grows (mark : Char) (h : Grows s t) : Grows (enclose mark s) (enclose mark t) :=
  ((Grows.refl [mark]).append h).append (.refl [mark])

theorem enclose_inj {mark : Char} : enclose mark s = enclose mark t ↔ s = t := by
  simp [enclose]

-- ---------------------------------------------------------------------------
-- Names
-- ---------------------------------------------------------------------------

/-- A letter or an underscore, and then letters, digits, underscores and dollars. -/
def PlainIdentifier : List Char → Prop
  | [] => False
  | c :: rest => (c.isAlpha = true ∨ c = '_') ∧
    ∀ d ∈ rest, d.isAlphanum = true ∨ d = '_' ∨ d = '$'

/-- Plain identifiers with dots between them. -/
def PlainName (name : String) : Prop :=
  ∃ parts : List (List Char), parts ≠ [] ∧ (∀ part ∈ parts, PlainIdentifier part) ∧
    name.toList = ['.'].intercalate parts

theorem isAsciiLetter_eq (c : Char) : isAsciiLetter c = c.isAlpha := by
  have hu : c.isUpper = (decide ('A' ≤ c) && decide (c ≤ 'Z')) := Bool.decide_and _ _
  show (c.isLower || (decide ('A' ≤ c) && decide (c ≤ 'Z'))) = (c.isUpper || c.isLower)
  rw [hu, Bool.or_comm]

theorem isPlain_iff {s : List Char} : isPlain s = true ↔ PlainIdentifier s := by
  cases s with
  | nil => simp [isPlain, PlainIdentifier]
  | cons c rest =>
    simp only [isPlain, isPlainStart, isPlainRest, PlainIdentifier, Char.isAlphanum,
      isAsciiLetter_eq, Bool.and_eq_true, Bool.or_eq_true, List.all_eq_true, decide_eq_true_eq]
    refine and_congr_right fun _ => forall₂_congr fun d _ => ?_
    rw [@or_right_comm (d.isAlpha = true), or_assoc]

theorem PlainIdentifier.dot_notMem (h : PlainIdentifier s) : '.' ∉ s := by
  cases s with
  | nil => exact List.not_mem_nil
  | cons c rest =>
    intro hd
    rcases List.mem_cons.mp hd with rfl | hd
    · exact absurd h.1 (by decide)
    · exact absurd (h.2 _ hd) (by decide)

theorem plainName_iff {name : String} :
    PlainName name ↔ (Text.split '.' name.toList).all isPlain = true := by
  simp only [List.all_eq_true, isPlain_iff]
  constructor
  · rintro ⟨parts, hn, hp, h⟩
    rw [h, ← Text.join_eq_intercalate, Text.split_join (fun part hm => (hp part hm).dot_notMem) hn]
    exact hp
  · intro h
    refine ⟨Text.split '.' name.toList, Text.split_ne_nil _ _, h, ?_⟩
    rw [← Text.join_eq_intercalate, Text.join_split]

theorem lt_quoteDouble (s : List Char) : s.length < (quoteDouble s).length := by
  have h := (double_grows '"' s).length_le
  simp only [quoteDouble, enclose, List.length_append, List.length_cons, List.length_nil]
  omega

theorem ne_quoteDouble (s : List Char) : s ≠ quoteDouble s :=
  ne_of_apply_ne List.length (Nat.ne_of_lt (lt_quoteDouble s))

theorem quotePart_grows (part : List Char) : Grows part (quotePart part) := by
  rw [quotePart]
  split
  · exact .refl part
  · exact .inr (lt_quoteDouble part)

theorem eq_quotePart_iff {part : List Char} : part = quotePart part ↔ isPlain part = true := by
  rw [quotePart]
  split
  · next hp => simp [hp]
  · next hp => simp [hp, ne_quoteDouble]

/-- Quoted parts do not make up for each other. -/
theorem join_quotePart (parts : List (List Char)) :
    Grows (Text.join '.' parts) (Text.join '.' (parts.map quotePart)) ∧
      (Text.join '.' parts = Text.join '.' (parts.map quotePart) ↔
        parts.all isPlain = true) := by
  induction parts with
  | nil => exact ⟨.refl [], by simp⟩
  | cons part rest ih =>
    cases rest with
    | nil => exact ⟨quotePart_grows part, by simp [Text.join, eq_quotePart_iff]⟩
    | cons next rest =>
      have hp := quotePart_grows part
      have hr := (Grows.refl ['.']).append ih.1
      refine ⟨hp.append hr, ?_⟩
      rw [List.all_cons, Bool.and_eq_true, ← ih.2, ← eq_quotePart_iff]
      refine (hp.append_inj hr).trans (and_congr_right fun _ => ?_)
      exact List.append_right_inj ['.']

theorem quoteIfNeeded_grows (name : List Char) : Grows name (quoteIfNeeded name) := by
  rw [quoteIfNeeded]
  split
  · exact .refl name
  · split
    · exact .inr (lt_quoteDouble name)
    · have h := (join_quotePart (Text.split '.' name)).1
      rwa [Text.join_split] at h

theorem eq_quoteIfNeeded_iff {name : List Char} :
    name = quoteIfNeeded name ↔ (Text.split '.' name).all isPlain = true := by
  rw [quoteIfNeeded]
  split
  · next hp => simp [hp]
  · split
    · next hp _ => simp [hp, ne_quoteDouble]
    · have h := (join_quotePart (Text.split '.' name)).2
      rwa [Text.join_split] at h

end Sql

-- ---------------------------------------------------------------------------
-- Texts of a dialect
-- ---------------------------------------------------------------------------

theorem Sql.append_text_inj {first second first' second' : String}
    (hf : Sql.Grows first.toList first'.toList) (hs : Sql.Grows second.toList second'.toList) :
    first ++ second = first' ++ second' ↔ first = first' ∧ second = second' := by
  simp only [← String.toList_inj, String.toList_append]
  exact hf.append_inj hs

namespace Dialect

theorem quoteIdentifier_grows (name : String) :
    Sql.Grows (legacy.quoteIdentifier name).toList (postgres.quoteIdentifier name).toList := by
  rw [quoteIdentifier, quoteIdentifier, String.toList_ofList]
  exact Sql.quoteIfNeeded_grows name.toList

theorem quoteIdentifier_eq_iff (name : String) :
    legacy.quoteIdentifier name = postgres.quoteIdentifier name ↔ Sql.PlainName name := by
  rw [Sql.plainName_iff, ← Sql.eq_quoteIfNeeded_iff, ← String.toList_inj, quoteIdentifier,
    quoteIdentifier, String.toList_ofList]

theorem quoteString_grows (value : String) :
    Sql.Grows (legacy.quoteString value).toList (postgres.quoteString value).toList := by
  rw [quoteString, quoteString, String.toList_ofList, String.toList_ofList]
  exact Sql.enclose_grows '\'' (Sql.double_grows '\'' value.toList)

theorem quoteString_eq_iff (value : String) :
    legacy.quoteString value = postgres.quoteString value ↔ '\'' ∉ value.toList := by
  rw [← Sql.eq_double_iff, ← String.toList_inj, quoteString, quoteString, String.toList_ofList,
    String.toList_ofList, Sql.enclose_inj]

end Dialect

end DeclarativeSql
