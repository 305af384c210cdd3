import DeclarativeSql.Proofs.Decimal.Notation
import DeclarativeSql.Proofs.Decimal.Shortest
import DeclarativeSql.Sql.Token

/-!
# Whole numbers in statements

A whole value below `10 ^ 21` is written with digits alone. They are the digits of its shortest
decimal with zeros behind them, and stand for the same number as its shortest notation, from which
they can always be taken.
-/

namespace DeclarativeSql

open Decimal (Denotes sign spelled spellOut?)
open Number.Literal (factor)

/-- Zero, or digits that do not begin with a zero, behind at most a minus. -/
def IsWholeText (text : List Char) : Prop :=
  text = ['0'] ∨ ∃ isNegative lead rest, text = sign isNegative ++ lead :: rest ∧
    lead ≠ '0' ∧ ∀ c ∈ lead :: rest, c.isDigit = true

namespace Binary64

/-- The notation with the fewest digits. -/
def shortestText (x : Binary64) : String :=
  x.signText ++ x.shortest.render ""

variable {x : Binary64} {n : ℕ}

theorem toList_signText (x : Binary64) : x.signText.toList = sign x.isNegative := by
  unfold signText sign
  split <;> rfl

theorem toList_shortestText (x : Binary64) :
    x.shortestText.toList = sign x.isNegative ++ (x.shortest.render "").toList := by
  rw [shortestText, String.toList_append, toList_signText]

theorem numeral_zero (h : x.isZero = true) : x.numeral = "0" :=
  if_pos h

theorem numeral_whole (h : x.magnitude = n) (hn : 0 < n) (hb : n < 10 ^ 21) :
    x.numeral = x.signText ++ x.shortest.wholeText := by
  have hz : ¬ x.isZero = true := by
    rw [isZero_iff, h]
    exact_mod_cast hn.ne'
  have hi : x.isIntegral = true := isIntegral_iff.mpr ⟨n, h⟩
  have hl : x.isBelow (Nat.pow 10 21) = true := by
    rw [isBelow_iff, h]
    exact_mod_cast hb
  rw [numeral, if_neg hz, if_pos (by rw [hi, hl]; rfl)]

end Binary64

theorem isWholeText_spelled {n : ℕ} (hn : 0 < n) (isNegative : Bool) :
    IsWholeText (spelled isNegative n).text := by
  obtain ⟨lead, rest, hd⟩ := List.exists_cons_of_ne_nil (Nat.toDigits_ne_nil (b := 10) (n := n))
  refine .inr ⟨isNegative, lead, rest, by rw [Decimal.text_spelled, hd], ?_,
    hd ▸ Number.isDigit_toDigits n⟩
  rintro rfl
  -- only zero begins with a zero
  have hv : Nat.ofDigitChars 10 (Nat.toDigits 10 n) 0 = n := Nat.ofDigitChars_ten_toDigits
  rw [hd, Number.toDigits_zero_lead hd] at hv
  exact hn.ne hv

/-- Zero is written as `0`. Any other whole value has a shortest decimal without a fraction; it is
written as the digits of that decimal with zeros behind them. -/
theorem whole_values_are_spelled_out {x : Binary64} {n : ℕ} (h : x.magnitude = n)
    (hb : n < 10 ^ 21) :
    let text := (Number.float x).numeral
    IsWholeText text.toList ∧
      (∃ value : ℚ, Denotes text.toList value ∧ Denotes x.shortestText.toList value) ∧
      (n = 0 → text = "0") ∧
      (0 < n → ∃ digits padding : ℕ, x.shortest = ⟨digits, padding⟩ ∧
        x.roundsFrom padding digits = true ∧
        text = x.signText ++ toString digits ++ Decimal.zeros padding ∧
        spellOut? x.shortestText.toList = some text.toList) := by
  intro text
  rcases Nat.eq_zero_or_pos n with rfl | hn
  · have hz : x.isZero = true := by rw [Binary64.isZero_iff, h, Nat.cast_zero]
    have ht : text = "0" := Binary64.numeral_zero hz
    have hs : x.shortest = ⟨0, 0⟩ := if_pos hz
    have hshort : x.shortestText.toList = (Decimal.pointed x.isNegative 0).text := by
      rw [Binary64.toList_shortestText, hs, Decimal.text_pointed]
      rfl
    have hzero (isNegative : Bool) : factor isNegative * (0 : ℕ) = 0 := by
      rw [Nat.cast_zero, mul_zero]
    refine ⟨.inl (by rw [ht]; rfl), ⟨0, ?_, ?_⟩, fun _ => ht, fun hn => absurd hn (by decide)⟩
    · rw [ht, ← hzero false]
      exact Decimal.denotes_spelled false 0
    · rw [hshort, ← hzero x.isNegative]
      exact Decimal.denotes_pointed x.isNegative 0
  · obtain ⟨digits, padding, hs, hr⟩ := Binary64.shortest_whole h hn hb
    obtain ⟨hp, hle⟩ := Binary64.of_roundsFrom h hn hr
    have hsmall : digits * 10 ^ padding < 10 ^ 22 := by omega
    have hnum : text = x.signText ++ (⟨digits, padding⟩ : Decimal).wholeText :=
      hs ▸ Binary64.numeral_whole h hn hb
    have ht : text.toList = (spelled x.isNegative (digits * 10 ^ padding)).text := by
      rw [hnum, String.toList_append, Binary64.toList_signText, Decimal.toList_wholeText hp,
        Decimal.text_spelled]
    obtain ⟨hd, hspell⟩ := Decimal.render_whole hp hsmall x.isNegative
    rw [← hs, ← Binary64.toList_shortestText] at hd hspell
    refine ⟨?_, ⟨_, ?_, hd⟩, fun hz => absurd hz hn.ne', fun _ =>
      ⟨digits, padding, hs, hr, ?_, ht ▸ hspell⟩⟩
    · rw [ht]
      exact isWholeText_spelled (Nat.mul_pos hp (Nat.pow_pos (by decide))) _
    · rw [ht]
      exact Decimal.denotes_spelled _ _
    · rw [hnum, String.append_assoc]
      rfl

/-- The negative of `2 ^ 63`, which has more digits than are needed to tell it from other values. -/
theorem whole_values_are_spelled_out_beyond_words :
    let x : Binary64 := ⟨0xC3E0000000000000⟩
    let text := (Number.float x).numeral
    x.magnitude = (9223372036854775808 : ℕ) ∧ 9223372036854775808 < 10 ^ 21 ∧
      x.shortestText = "-9.223372036854776e18" ∧ text = "-9223372036854776000" ∧
      IsWholeText text.toList ∧
      (∃ value : ℚ, Denotes text.toList value ∧ Denotes x.shortestText.toList value) ∧
      spellOut? x.shortestText.toList = some text.toList := by
  intro x text
  have h : x.magnitude = (9223372036854775808 : ℕ) := Binary64.magnitude_eq_iff.mpr (by decide)
  have hb : 9223372036854775808 < 10 ^ 21 := by decide
  obtain ⟨hwhole, hvalue, -, hpadded⟩ := whole_values_are_spelled_out h hb
  obtain ⟨-, -, -, -, -, hspell⟩ := hpadded (by decide)
  exact ⟨h, hb, by decide +kernel, by decide +kernel, hwhole, hvalue, hspell⟩

end DeclarativeSql
