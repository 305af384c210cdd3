import Mathlib.Data.List.Infix

/-!
# Matching texts with patterns

In a pattern `%` stands for any run of characters, `_` for any one character, and behind a
backslash each character stands for itself. A pattern that ends in an open backslash is refused.

A pattern with `%` before it, behind it or on both sides matches the texts that end with, start
with or contain a text that the pattern itself matches. A literal, which has none of the three
characters, matches itself alone. No other pattern does that: what is left of it when its runs are
empty and its backslashes are gone is matched, too, and is another text.
-/

namespace DeclarativeSql.Sql

/-- What one place of a pattern stands for. -/
inductive PatternPart
  | run
  | one
  | char (c : Char)
  deriving DecidableEq

def PatternPart.ofChar (c : Char) : PatternPart :=
  if c = '%' then .run else if c = '_' then .one else .char c

abbrev Pattern := List PatternPart

namespace Pattern

def ofText? : List Char → Option Pattern
  | [] => some []
  | c :: rest =>
    if c = '\\' then
      match rest with
      | [] => none
      | escaped :: rest => (ofText? rest).map (.char escaped :: ·)
    else (ofText? rest).map (.ofChar c :: ·)

def accepts : Pattern → List Char → Bool
  | [], text => text.isEmpty
  | .run :: rest, text => text.tails.any (accepts rest)
  | .one :: _, [] => false
  | .one :: rest, _ :: text => accepts rest text
  | .char _ :: _, [] => false
  | .char c :: rest, d :: text => c = d && accepts rest text

end Pattern

/-- Whether a text matches a pattern. -/
def like (pattern text : String) : Bool :=
  (Pattern.ofText? pattern.toList).any (·.accepts text.toList)

/-- Each character stands for itself. -/
def IsLiteral (text : List Char) : Prop :=
  ∀ c ∈ text, c ∉ ['%', '_', '\\']

instance (text : List Char) : Decidable (IsLiteral text) :=
  List.decidableBAll (· ∉ ['%', '_', '\\']) text

/-- Behind every backslash that is not escaped itself stands a character. -/
def IsClosed (text : List Char) : Prop :=
  (Pattern.ofText? text).isSome

instance (text : List Char) : Decidable (IsClosed text) :=
  inferInstanceAs (Decidable ((Pattern.ofText? text).isSome = true))

namespace Pattern

variable {pattern first second : Pattern} {text rest : List Char} {c : Char}

-- ---------------------------------------------------------------------------
-- What a pattern matches
-- ---------------------------------------------------------------------------

@[simp] theorem accepts_nil : accepts [] text = true ↔ text = [] := by
  rw [accepts, List.isEmpty_iff]

@[simp] theorem accepts_one : accepts (.one :: pattern) text = true ↔
    ∃ c rest, text = c :: rest ∧ accepts pattern rest = true := by
  cases text <;> simp [accepts]

@[simp] theorem accepts_char : accepts (.char c :: pattern) text = true ↔
    ∃ rest, text = c :: rest ∧ accepts pattern rest = true := by
  cases text with
  | nil => simp [accepts]
  | cons d text =>
    rw [accepts, Bool.and_eq_true, decide_eq_true_eq]
    constructor
    · rintro ⟨rfl, h⟩
      exact ⟨text, rfl, h⟩
    · rintro ⟨_, he, h⟩
      cases he
      exact ⟨rfl, h⟩

/-- A run in front leaves any end of the text to the rest. -/
theorem accepts_run : accepts (.run :: pattern) text = true ↔
    ∃ part, accepts pattern part = true ∧ part <:+ text := by
  rw [accepts, List.any_eq_true]
  simp only [List.mem_tails, and_comm]

theorem accepts_append : accepts (first ++ second) text = true ↔
    ∃ front back, text = front ++ back ∧ accepts first front = true ∧
      accepts second back = true := by
  induction first generalizing text with
  | nil => simp
  | cons part first ih =>
    cases part with
    | run =>
      simp only [List.cons_append, accepts_run, ih]
      constructor
      · rintro ⟨_, ⟨front, back, rfl, hf, hb⟩, ⟨run, rfl⟩⟩
        exact ⟨run ++ front, back, (List.append_assoc ..).symm,
          ⟨front, hf, List.suffix_append run front⟩, hb⟩
      · rintro ⟨_, back, rfl, ⟨front, hf, ⟨run, rfl⟩⟩, hb⟩
        exact ⟨front ++ back, ⟨front, back, rfl, hf, hb⟩, ⟨run, (List.append_assoc ..).symm⟩⟩
    | one =>
      simp only [List.cons_append, accepts_one, ih]
      constructor
      · rintro ⟨c, _, rfl, front, back, rfl, hf, hb⟩
        exact ⟨c :: front, back, rfl, ⟨c, front, rfl, hf⟩, hb⟩
      · rintro ⟨_, back, rfl, ⟨c, front, rfl, hf⟩, hb⟩
        exact ⟨c, front ++ back, rfl, front, back, rfl, hf, hb⟩
    | char c =>
      simp only [List.cons_append, accepts_char, ih]
      constructor
      · rintro ⟨_, rfl, front, back, rfl, hf, hb⟩
        exact ⟨c :: front, back, rfl, ⟨front, rfl, hf⟩, hb⟩
      · rintro ⟨_, back, rfl, ⟨front, rfl, hf⟩, hb⟩
        exact ⟨front ++ back, rfl, front, back, rfl, hf, hb⟩

/-- A run behind leaves any start of the text to the rest. -/
theorem accepts_append_run : accepts (pattern ++ [.run]) text = true ↔
    ∃ part, accepts pattern part = true ∧ part <+: text := by
  have hrun (back : List Char) : accepts [.run] back = true :=
    accepts_run.mpr ⟨[], accepts_nil.mpr rfl, List.nil_suffix⟩
  rw [accepts_append]
  constructor
  · rintro ⟨front, back, rfl, hf, -⟩
    exact ⟨front, hf, List.prefix_append front back⟩
  · rintro ⟨front, hf, ⟨back, rfl⟩⟩
    exact ⟨front, back, rfl, hf, hrun back⟩

theorem accepts_between_runs : accepts (.run :: pattern ++ [.run]) text = true ↔
    ∃ part, accepts pattern part = true ∧ part <:+: text := by
  rw [List.cons_append, accepts_run]
  simp only [accepts_append_run, List.infix_iff_prefix_suffix]
  constructor
  · rintro ⟨back, ⟨part, hp, hb⟩, ht⟩
    exact ⟨part, hp, back, hb, ht⟩
  · rintro ⟨part, hp, back, hb, ht⟩
    exact ⟨back, ⟨part, hp, hb⟩, ht⟩

-- ---------------------------------------------------------------------------
-- Reading a pattern
-- ---------------------------------------------------------------------------

theorem ofText?_escape (c : Char) (rest : List Char) :
    ofText? ('\\' :: c :: rest) = (ofText? rest).map (.char c :: ·) := by
  rw [ofText?.eq_def]
  exact if_pos rfl

theorem ofText?_cons (h : c ≠ '\\') (rest : List Char) :
    ofText? (c :: rest) = (ofText? rest).map (.ofChar c :: ·) := by
  rw [ofText?.eq_def]
  exact if_neg h

/-- A pattern is read from left to right: it ends, or goes on behind an escaped or another
character, or ends in an open backslash. -/
theorem textInduction {motive : List Char → Prop} (nil : motive []) (opened : motive ['\\'])
    (escape : ∀ c rest, motive rest → motive ('\\' :: c :: rest))
    (cons : ∀ c rest, c ≠ '\\' → motive rest → motive (c :: rest)) (text : List Char) :
    motive text := by
  induction text using ofText?.induct with
  | case1 => exact nil
  | case2 => exact opened
  | case3 c rest ih => exact escape c rest ih
  | case4 c rest hc ih => exact cons c rest hc ih

theorem ofText?_append (h : ofText? text = some first) (rest : List Char) :
    ofText? (text ++ rest) = (ofText? rest).map (first ++ ·) := by
  induction text using textInduction generalizing first with
  | nil =>
    cases h
    simp
  | opened => cases h
  | escape c text ih =>
    rw [ofText?_escape, Option.map_eq_some_iff] at h
    obtain ⟨parts, hp, rfl⟩ := h
    rw [List.cons_append, List.cons_append, ofText?_escape, ih hp, Option.map_map]
    rfl
  | cons c text hc ih =>
    rw [ofText?_cons hc, Option.map_eq_some_iff] at h
    obtain ⟨parts, hp, rfl⟩ := h
    rw [List.cons_append, ofText?_cons hc, ih hp, Option.map_map]
    rfl

/-- What is not closed has one backslash too many. -/
theorem exists_open (h : ofText? text = none) :
    ∃ closed first, text = closed ++ ['\\'] ∧ ofText? closed = some first := by
  induction text using textInduction with
  | nil => cases h
  | opened => exact ⟨[], [], rfl, rfl⟩
  | escape c text ih =>
    rw [ofText?_escape, Option.map_eq_none_iff] at h
    obtain ⟨closed, first, rfl, hc⟩ := ih h
    exact ⟨'\\' :: c :: closed, .char c :: first, rfl, by rw [ofText?_escape, hc]; rfl⟩
  | cons c text hc ih =>
    rw [ofText?_cons hc, Option.map_eq_none_iff] at h
    obtain ⟨closed, first, rfl, hf⟩ := ih h
    exact ⟨c :: closed, .ofChar c :: first, rfl, by rw [ofText?_cons hc, hf]; rfl⟩

theorem getLast?_of_open (h : ofText? text = none) : text.getLast? = some '\\' := by
  obtain ⟨closed, -, rfl, -⟩ := exists_open h
  exact List.getLast?_concat

/-- A character behind an open backslash stands for itself. -/
theorem ofText?_open_append (h : ofText? text = none) (c : Char) :
    ∃ first, ofText? (text ++ [c]) = some (first ++ [.char c]) := by
  obtain ⟨closed, first, rfl, hf⟩ := exists_open h
  refine ⟨first, ?_⟩
  rw [List.append_assoc, ofText?_append hf]
  rfl

theorem getLast?_of_accepts (h : accepts (first ++ [.char c]) text = true) :
    text.getLast? = some c := by
  obtain ⟨front, back, rfl, -, hb⟩ := accepts_append.mp h
  obtain ⟨rest, rfl, hr⟩ := accepts_char.mp hb
  rw [accepts_nil.mp hr]
  exact List.getLast?_concat

-- ---------------------------------------------------------------------------
-- Literals
-- ---------------------------------------------------------------------------

theorem ofText?_literal (h : IsLiteral text) : ofText? text = some (text.map .char) := by
  induction text with
  | nil => rfl
  | cons c text ih =>
    obtain ⟨hc, ht⟩ := List.forall_mem_cons.mp h
    simp only [List.mem_cons, List.not_mem_nil, or_false, not_or] at hc
    rw [ofText?_cons hc.2.2, ih ht, PatternPart.ofChar, if_neg hc.1, if_neg hc.2.1]
    rfl

theorem accepts_chars {literal : List Char} :
    accepts (literal.map .char) text = true ↔ text = literal := by
  induction literal generalizing text with
  | nil => exact accepts_nil
  | cons c literal ih => simp [ih]

/-- The shortest text of a pattern, with a dash wherever any character would do. -/
def fill : Pattern → List Char
  | [] => []
  | .run :: rest => fill rest
  | .one :: rest => '-' :: fill rest
  | .char c :: rest => c :: fill rest

theorem accepts_fill (pattern : Pattern) : accepts pattern pattern.fill = true := by
  induction pattern with
  | nil => rfl
  | cons part rest ih =>
    cases part with
    | run => exact accepts_run.mpr ⟨fill rest, ih, List.suffix_refl _⟩
    | one => exact accepts_one.mpr ⟨'-', fill rest, rfl, ih⟩
    | char c => exact accepts_char.mpr ⟨fill rest, rfl, ih⟩

theorem length_fill_le (h : ofText? text = some pattern) : pattern.fill.length ≤ text.length := by
  induction text using textInduction generalizing pattern with
  | nil =>
    cases h
    exact Nat.le_refl _
  | opened => cases h
  | escape c text ih =>
    rw [ofText?_escape, Option.map_eq_some_iff] at h
    obtain ⟨parts, hp, rfl⟩ := h
    simp only [fill, List.length_cons]
    have := ih hp
    omega
  | cons c text hc ih =>
    rw [ofText?_cons hc, Option.map_eq_some_iff] at h
    obtain ⟨parts, hp, rfl⟩ := h
    have := ih hp
    unfold PatternPart.ofChar
    split_ifs <;> simp only [fill, List.length_cons] <;> omega

/-- Runs and backslashes make a pattern longer than its shortest text, and a place for any one
character is no dash. -/
theorem isLiteral_of_fill (h : ofText? text = some pattern) (hf : pattern.fill = text) :
    IsLiteral text := by
  induction text using textInduction generalizing pattern with
  | nil => exact List.forall_mem_nil _
  | opened => cases h
  | escape c text ih =>
    rw [ofText?_escape, Option.map_eq_some_iff] at h
    obtain ⟨parts, hp, rfl⟩ := h
    have hl := congrArg List.length hf
    have := length_fill_le hp
    simp only [fill, List.length_cons] at hl
    omega
  | cons c text hc ih =>
    rw [ofText?_cons hc, Option.map_eq_some_iff] at h
    obtain ⟨parts, hp, rfl⟩ := h
    have hle := length_fill_le hp
    unfold PatternPart.ofChar at hf
    split_ifs at hf with hrun hone
    · have hl := congrArg List.length hf
      simp only [fill, List.length_cons] at hl
      omega
    · rw [fill, List.cons.injEq, hone] at hf
      exact absurd hf.1 (by decide)
    · rw [fill, List.cons.injEq] at hf
      exact List.forall_mem_cons.mpr ⟨by simp [hc, hrun, hone], ih hp hf.2⟩

end Pattern

end DeclarativeSql.Sql
