import DeclarativeSql.Proofs.Decimal.Notation
import DeclarativeSql.Proofs.Sql.Matching
import DeclarativeSql.Statement.Condition

/-!
# What the text operators select

The value of a text operator goes into its pattern as it is, and `%`, `_` and backslashes in it keep
the meaning that they have in patterns. So the operator selects the texts that contain, start with
or end with a text which the value, as a pattern, matches. Where the value is a literal, as all
numbers are, that text is the value itself; for every other value it is not.
-/

namespace DeclarativeSql

/-- What the name of a text operator says of a text and a part of it. -/
def Operator.Selects (operator : Operator) (part text : String) : Prop :=
  match operator with
  | .startsWith => part.toList <+: text.toList
  | .endsWith => part.toList <:+ text.toList
  | _ => part.toList <:+: text.toList

namespace Operator

open Sql (like IsClosed IsLiteral Pattern)

variable {operator : Operator} {value part text : String} {parts : Pattern}

theorem Selects.isInfix (h : operator.Selects part text) : part.toList <:+: text.toList := by
  unfold Selects at h
  split at h
  · exact h.isInfix
  · exact h.isInfix
  · exact h

theorem selects_self (operator : Operator) (text : String) : operator.Selects text text := by
  unfold Selects
  split
  · exact List.prefix_refl _
  · exact List.suffix_refl _
  · exact List.infix_refl _

-- ---------------------------------------------------------------------------
-- Values as patterns
-- ---------------------------------------------------------------------------

theorem like_iff {pattern : String} (h : Pattern.ofText? pattern.toList = some parts) :
    like pattern text = true ↔ Pattern.accepts parts text.toList = true := by
  rw [like, h, Option.any_some]

theorem toList_pattern (operator : Operator) (value : String) :
    (operator.pattern value).toList =
      match operator with
      | .startsWith => value.toList ++ ['%']
      | .endsWith => '%' :: value.toList
      | _ => '%' :: (value.toList ++ ['%']) := by
  unfold pattern
  split <;> simp only [String.toList_append] <;> rfl

theorem ofText?_run {text : List Char} (h : Pattern.ofText? text = some parts) :
    Pattern.ofText? ('%' :: text) = some (.run :: parts) := by
  rw [Pattern.ofText?_cons (by decide), h]
  rfl

theorem exists_text {P : List Char → Prop} : (∃ part, P part) ↔ ∃ part : String, P part.toList :=
  ⟨fun ⟨part, h⟩ => ⟨.ofList part, by rwa [String.toList_ofList]⟩, fun ⟨_, h⟩ => ⟨_, h⟩⟩

theorem like_pattern (h : IsClosed value.toList) :
    like (operator.pattern value) text = true ↔
      ∃ part, like value part = true ∧ operator.Selects part text := by
  obtain ⟨parts, hp⟩ := Option.isSome_iff_exists.mp h
  have hbehind : Pattern.ofText? (value.toList ++ ['%']) = some (parts ++ [.run]) := by
    rw [Pattern.ofText?_append hp]
    rfl
  have hpattern := toList_pattern operator value
  simp only [like_iff hp]
  unfold Selects
  split at hpattern
  · rw [like_iff (hpattern ▸ hbehind), Pattern.accepts_append_run, exists_text]
  · rw [like_iff (hpattern ▸ ofText?_run hp), Pattern.accepts_run, exists_text]
  · rw [like_iff (hpattern ▸ ofText?_run hbehind), ← List.cons_append,
      Pattern.accepts_between_runs, exists_text]

/-- The sign behind an open backslash stands for itself, and the value does not end with it. -/
theorem not_like_pattern_open (h : Pattern.ofText? value.toList = none) :
    ¬ like (operator.pattern value) value = true := by
  obtain ⟨parts, hp⟩ := Pattern.ofText?_open_append h '%'
  have hlast (parts : Pattern) :
      ¬ Pattern.accepts (parts ++ [.char '%']) value.toList = true := by
    intro ha
    have he := Pattern.getLast?_of_accepts ha
    rw [Pattern.getLast?_of_open h] at he
    exact absurd he (by decide)
  have hpattern := toList_pattern operator value
  split at hpattern
  · rw [like_iff (hpattern ▸ hp)]
    exact hlast parts
  · rw [like, hpattern, Pattern.ofText?_cons (by decide), h]
    exact Bool.false_ne_true
  · rw [like_iff (hpattern ▸ ofText?_run hp)]
    exact hlast (.run :: parts)

/-- The operator selects by the value itself exactly where the value is a literal. -/
theorem isLiteral_iff : IsLiteral value.toList ↔
    ∀ text, like (operator.pattern value) text = true ↔ operator.Selects value text := by
  constructor
  · intro h text
    have hp := Pattern.ofText?_literal h
    rw [like_pattern (Option.isSome_of_eq_some hp)]
    simp only [like_iff hp, Pattern.accepts_chars, String.toList_inj, exists_eq_left]
  · intro h
    cases hp : Pattern.ofText? value.toList with
    | none => exact absurd ((h value).mpr (selects_self operator value)) (not_like_pattern_open hp)
    | some parts =>
      -- The shortest text of the value is selected, so it is the value.
      have hl : like value (.ofList parts.fill) = true := by
        rw [like_iff hp, String.toList_ofList]
        exact Pattern.accepts_fill parts
      have hs := (h _).mp ((like_pattern (Option.isSome_of_eq_some hp)).mpr
        ⟨_, hl, selects_self operator _⟩)
      have hi := hs.isInfix
      rw [String.toList_ofList] at hi
      have he := hi.eq_of_length_le (Pattern.length_fill_le hp)
      exact Pattern.isLiteral_of_fill hp he.symm

end Operator

-- ---------------------------------------------------------------------------
-- Numbers as patterns
-- ---------------------------------------------------------------------------

open Sql (IsLiteral)

theorem isLiteral_append {first second : List Char} :
    IsLiteral (first ++ second) ↔ IsLiteral first ∧ IsLiteral second :=
  List.forall_mem_append

theorem isLiteral_digits {digits : List Char} (h : ∀ c ∈ digits, c.isDigit = true) :
    IsLiteral digits := by
  intro c hc hm
  have hd := h c hc
  simp only [List.mem_cons, List.not_mem_nil, or_false] at hm
  rcases hm with rfl | rfl | rfl <;> cases hd

theorem isLiteral_zeros (count : ℕ) : IsLiteral (Decimal.zeros count).toList := by
  rw [Decimal.toList_zeros]
  refine isLiteral_digits fun c hc => ?_
  rw [List.eq_of_mem_replicate hc]
  rfl

theorem isLiteral_intText (value : Int) : IsLiteral (toString value).toList := by
  have hd := isLiteral_digits (Number.isDigit_toDigits value.natAbs)
  rw [Text.toList_intText]
  split
  · exact hd
  · exact List.forall_mem_cons.mpr ⟨by decide, hd⟩

namespace Decimal

variable (d : Decimal)

theorem isLiteral_digitText : IsLiteral d.digitText.toList := by
  rw [toList_digitText]
  exact isLiteral_digits (Number.isDigit_toDigits _)

theorem isLiteral_positional : IsLiteral d.positional.toList := by
  have hdigits := d.isLiteral_digitText
  have hpoint : IsLiteral ".".toList := by decide
  unfold positional
  split_ifs
  · have htail : IsLiteral ".0".toList := by decide
    simp only [wholeText, String.toList_append, isLiteral_append]
    exact ⟨⟨hdigits, isLiteral_zeros _⟩, htail⟩
  · simp only [List.splitAt_eq, String.toList_append, String.toList_ofList, isLiteral_append]
    exact ⟨⟨fun c hc => hdigits c (List.mem_of_mem_take hc), hpoint⟩,
      fun c hc => hdigits c (List.mem_of_mem_drop hc)⟩
  · have hlead : IsLiteral "0.".toList := by decide
    simp only [String.toList_append, isLiteral_append]
    exact ⟨⟨hlead, isLiteral_zeros _⟩, hdigits⟩

theorem isLiteral_scientific : IsLiteral (d.scientific "").toList := by
  have hdigits := d.isLiteral_digitText
  have he : IsLiteral "e".toList := by decide
  unfold scientific
  simp only [String.toList_append, isLiteral_append]
  refine ⟨⟨⟨?_, he⟩, ?_⟩, isLiteral_intText _⟩
  · split
    · decide
    · next lead hd =>
      rw [hd] at hdigits
      rwa [String.toList_ofList]
    · next lead rest _ hd =>
      rw [hd] at hdigits
      obtain ⟨hlead, hrest⟩ := List.forall_mem_cons.mp hdigits
      rw [String.toList_ofList]
      exact List.forall_mem_cons.mpr ⟨hlead, List.forall_mem_cons.mpr ⟨by decide, hrest⟩⟩
  · split_ifs <;> decide

end Decimal

theorem Number.isLiteral_numeral (number : Number) : IsLiteral number.numeral.toList := by
  cases number with
  | int value => exact isLiteral_intText value
  | float x =>
    have hsign : IsLiteral x.signText.toList := by
      unfold Binary64.signText
      split <;> decide
    rw [numeral, Binary64.numeral]
    split_ifs
    · decide
    · simp only [Decimal.wholeText, String.toList_append, isLiteral_append]
      exact ⟨hsign, x.shortest.isLiteral_digitText, isLiteral_zeros _⟩
    · rw [String.toList_append, isLiteral_append, Decimal.render]
      split_ifs
      · exact ⟨hsign, x.shortest.isLiteral_positional⟩
      · exact ⟨hsign, x.shortest.isLiteral_scientific⟩

-- ---------------------------------------------------------------------------
-- Conditions
-- ---------------------------------------------------------------------------

open Sql (like IsClosed)

theorem Condition.compile_text {condition : Condition} {operator : Operator}
    (ho : condition.operator = operator.name) (ht : operator.isPattern = true)
    (hv : condition.value.isNull = false) :
    condition.compile = .ok [.column condition.column, .space,
      Operator.patternTest condition.isCaseSensitive, .space,
      .string (operator.pattern condition.value.plainText)] := by
  rw [Condition.compile, ho, Operator.ofName?_name]
  dsimp only
  rw [Operator.compile, hv, Operator.comparand]
  cases operator <;> first | rfl | cases ht

/-- A text operator selects by its value as a pattern. It selects by the value itself exactly when
the value is a literal, and numbers always are. -/
theorem text_operators_select_by_patterns {condition : Condition} {operator : Operator}
    (ho : condition.operator = operator.name) (ht : operator.isPattern = true)
    (hc : condition.isCaseSensitive = true) (hv : condition.value.isNull = false) :
    let value := condition.value.plainText
    ∃ pattern : String,
      condition.compile =
          .ok [.column condition.column, .space, .like, .space, .string pattern] ∧
        (IsLiteral value.toList ↔
          ∀ text, like pattern text = true ↔ operator.Selects value text) ∧
        (∀ number, condition.value = .number number → IsLiteral value.toList) ∧
        (IsClosed value.toList → ∀ text, like pattern text = true ↔
          ∃ part, like value part = true ∧ operator.Selects part text) := by
  intro value
  refine ⟨operator.pattern value, ?_, Operator.isLiteral_iff, ?_, fun h _ =>
    Operator.like_pattern h⟩
  · have h := Condition.compile_text ho ht hv
    rwa [hc] at h
  · intro number hn
    have hval : value = number.numeral := congrArg Value.plainText hn
    exact hval ▸ number.isLiteral_numeral

/-- The underscores of a text stand for other characters, the digits of a number do not. -/
theorem text_operators_select_by_patterns_of_underscores :
    let named : Condition := ⟨"campaign_name", "contains", .text "_ADR_", some ⟨true⟩⟩
    let numbered : Condition := ⟨"code", "starts_with", .number (.int (-5)), some ⟨true⟩⟩
    (¬ IsLiteral "_ADR_".toList ∧ IsClosed "_ADR_".toList ∧ ∃ pattern : String,
      named.compile = .ok [.column "campaign_name", .space, .like, .space, .string pattern] ∧
        ∀ text, like pattern text = true ↔
          ∃ part, like "_ADR_" part = true ∧ part.toList <:+: text.toList) ∧
    (∃ pattern : String,
      numbered.compile = .ok [.column "code", .space, .like, .space, .string pattern] ∧
        ∀ text, like pattern text = true ↔ "-5".toList <+: text.toList) := by
  intro named numbered
  have hclosed : IsClosed "_ADR_".toList := by decide
  have hvalue : numbered.value.plainText = "-5" := by decide
  obtain ⟨pattern, hc, -, -, hs⟩ :=
    @text_operators_select_by_patterns named .contains rfl rfl rfl rfl
  obtain ⟨digits, hd, hl, hn, -⟩ :=
    @text_operators_select_by_patterns numbered .startsWith rfl rfl rfl rfl
  have hliteral := hl.mp (hn _ rfl)
  rw [hvalue] at hliteral
  exact ⟨⟨by decide, hclosed, pattern, hc, hs hclosed⟩, digits, hd, hliteral⟩

/-- The percent sign of `50%` is not looked for. -/
theorem percent_signs_are_not_looked_for :
    ¬ ∀ (condition : Condition) (operator : Operator) (pattern : String),
      condition.operator = operator.name → operator.isPattern = true →
      condition.isCaseSensitive = true → condition.value.isNull = false →
      condition.compile =
        .ok [.column condition.column, .space, .like, .space, .string pattern] →
      ∀ text, like pattern text = true ↔ operator.Selects condition.value.plainText text := by
  intro h
  have hs := h ⟨"discount", "contains", .text "50%", some ⟨true⟩⟩ .contains "%50%%" rfl rfl rfl rfl
    rfl "502"
  have hi : "50%".toList <:+: "502".toList := hs.mp (by decide)
  exact absurd hi (by decide)

end DeclarativeSql
