import Mathlib.Algebra.Field.Rat
import Mathlib.Data.List.DropRight
import Mathlib.Tactic.Ring
import DeclarativeSql.Proofs.Json.Numbers
import DeclarativeSql.Proofs.Text.Numerals

/-!
# What decimal notation stands for

A number in decimal notation has a sign, whole digits, a fraction and a power of ten, of which all
but the whole digits may be missing. It denotes a rational number, and it can be spelled out: with
digits alone, where zeros stand for what is left of the power of ten. A decimal without a fraction
is written in two ways, with the point behind its last digit or with an exponent, and both are
spelled out as its digits and its zeros.
-/

namespace DeclarativeSql

namespace Number.Literal

def factor (isNegative : Bool) : ℚ :=
  if isNegative then -1 else 1

/-- The number that a literal stands for. -/
def value (literal : Literal) : ℚ :=
  factor literal.isNegative * ofDigits (literal.whole ++ literal.fraction) *
    10 ^ (literal.exponent.getD 0 - literal.fraction.length)

end Number.Literal

namespace Decimal

/-- The whole text is one literal, with this value. -/
def Denotes (text : List Char) (value : ℚ) : Prop :=
  ∃ literal : Number.Literal, Number.Literal.scan? text = some (literal, []) ∧
    literal.value = value

/-- What stands before the first mark, and what stands behind it. -/
def cutAt (mark : Char) (text : List Char) : List Char × Option (List Char) :=
  (text.takeWhile (· ≠ mark), (text.dropWhile (· ≠ mark)).tail?)

/-- A whole number of 32 bits; anything else counts as zero. -/
def readPower (text : List Char) : Int :=
  match Number.Literal.scanExponent? ('e' :: text) with
  | some (some power, []) => if -2 ^ 31 ≤ power ∧ power < 2 ^ 31 then power else 0
  | _ => 0

def splitSign : List Char → List Char × List Char
  | '-' :: rest => (['-'], rest)
  | rest => ([], rest)

/-- Spells out a number in decimal notation: point and exponent are left out, with the zeros at the
end of the fraction, and zeros are added in place of the exponent. A fraction with more digits than
the exponent moves cannot be spelled out. -/
def spellOut? (text : List Char) : Option (List Char) :=
  let (mantissa, power) := cutAt 'e' text
  let (sign, unsigned) := splitSign mantissa
  let (whole, fraction) := cutAt '.' unsigned
  let significant := (fraction.getD []).rdropWhile (· = '0')
  let zeros := power.elim 0 readPower - significant.length
  if zeros < 0 then none
  else some (sign ++ whole ++ significant ++ List.replicate zeros.toNat '0')

-- ---------------------------------------------------------------------------
-- Parts of a notation
-- ---------------------------------------------------------------------------

/-- The parts of a number in decimal notation. -/
structure Parts where
  isNegative : Bool
  whole : List Char
  fraction : Option (List Char) := none
  power : Option (List Char) := none

def marked (mark : Char) (part : Option (List Char)) : List Char :=
  part.elim [] (mark :: ·)

def IsDigits (digits : List Char) : Prop :=
  digits ≠ [] ∧ ∀ c ∈ digits, c.isDigit = true

def sign (isNegative : Bool) : List Char :=
  if isNegative then ['-'] else []

namespace Parts

def text (parts : Parts) : List Char :=
  sign parts.isNegative ++ parts.whole ++ marked '.' parts.fraction ++ marked 'e' parts.power

/-- All parts are digits, and a zero does not stand before other whole digits. -/
structure WellFormed (parts : Parts) : Prop where
  whole : IsDigits parts.whole
  lead : ∀ more, parts.whole = '0' :: more → more = []
  fraction : ∀ digits ∈ parts.fraction, IsDigits digits
  power : ∀ digits ∈ parts.power, IsDigits digits

/-- The literal with these parts. -/
def literal (parts : Parts) : Number.Literal where
  isNegative := parts.isNegative
  whole := parts.whole.map Number.digitValue
  fraction := (parts.fraction.getD []).map Number.digitValue
  exponent := parts.power.map fun digits => (Nat.ofDigitChars 10 digits 0 : Int)

end Parts

theorem ne_of_isDigit {c mark : Char} (hc : c.isDigit = true) (hm : mark.isDigit = false) :
    c ≠ mark := by
  rintro rfl
  rw [hc] at hm
  cases hm

theorem IsDigits.notMem {digits : List Char} (h : IsDigits digits) {mark : Char}
    (hm : mark.isDigit = false) : mark ∉ digits :=
  fun hd => ne_of_isDigit (h.2 mark hd) hm rfl

theorem cutAt_marked {mark : Char} {before : List Char} (h : mark ∉ before)
    (part : Option (List Char)) : cutAt mark (before ++ marked mark part) = (before, part) := by
  have hb : ∀ c ∈ before, (decide (c ≠ mark)) = true :=
    fun c hc => decide_eq_true fun he => h (he ▸ hc)
  rw [cutAt, List.takeWhile_append_of_pos hb, List.dropWhile_append_of_pos hb]
  cases part <;> simp [marked]

theorem head_marked {mark : Char} {part : Option (List Char)} :
    ∀ c ∈ (marked mark part).head?, c = mark := by
  cases part <;> simp [marked]

-- ---------------------------------------------------------------------------
-- Reading a notation
-- ---------------------------------------------------------------------------

open Number (digitValue spanDigits_digits)
open Number.Literal (factor scanExponent? scanFraction?)

theorem scanExponent?_marked {power : Option (List Char)} (h : ∀ digits ∈ power, IsDigits digits) :
    scanExponent? (marked 'e' power) =
      some (power.map fun digits => (Nat.ofDigitChars 10 digits 0 : Int), []) := by
  cases power with
  | none => rfl
  | some digits =>
    obtain ⟨hn, hd⟩ := h digits rfl
    obtain ⟨c, more, rfl⟩ := List.exists_cons_of_ne_nil hn
    have hc := hd c List.mem_cons_self
    have hspan : Number.spanDigits (c :: more) = ((c :: more).map digitValue, []) := by
      have hs := spanDigits_digits hd (show ∀ d ∈ ([] : List Char).head?, d.isDigit = false by simp)
      rwa [List.append_nil] at hs
    have hpower : Number.Literal.scanPower? 1 (c :: more) =
        some (some (Nat.ofDigitChars 10 (c :: more) 0 : Int), []) := by
      rw [Number.Literal.scanPower?_eq, hspan, Number.ofDigits_digitValue, Int.one_mul]
      exact if_neg (List.cons_ne_nil _ _)
    have hplus : c ≠ '+' := ne_of_isDigit hc rfl
    have hminus : c ≠ '-' := ne_of_isDigit hc rfl
    rw [marked, Option.elim_some, scanExponent?, if_pos (by decide)]
    · exact hpower
    · exact fun _ he => hplus (List.cons.inj he).1
    · exact fun _ he => hminus (List.cons.inj he).1

theorem readPower_digits {digits : List Char} (h : IsDigits digits)
    (hv : Nat.ofDigitChars 10 digits 0 < 2 ^ 31) :
    readPower digits = Nat.ofDigitChars 10 digits 0 := by
  have hd : ∀ part ∈ some digits, IsDigits part := by simpa using h
  have hs : scanExponent? ('e' :: digits) =
      some (some (Nat.ofDigitChars 10 digits 0 : Int), []) := scanExponent?_marked hd
  rw [readPower, hs]
  exact if_pos (by omega)

theorem scanFraction?_marked {fraction : Option (List Char)}
    (h : ∀ digits ∈ fraction, IsDigits digits) (power : Option (List Char)) :
    scanFraction? (marked '.' fraction ++ marked 'e' power) =
      some ((fraction.getD []).map digitValue, marked 'e' power) := by
  have he : ∀ c ∈ (marked 'e' power).head?, c.isDigit = false := by
    intro c hc
    rw [head_marked c hc]
    rfl
  cases fraction with
  | none =>
    refine Number.Literal.scanFraction?_absent fun hp => ?_
    exact absurd (head_marked _ hp) (by decide)
  | some digits =>
    obtain ⟨hn, hd⟩ := h digits rfl
    rw [marked, Option.elim_some, List.cons_append, Number.Literal.scanFraction?_point,
      spanDigits_digits hd he]
    exact if_neg (by simpa using hn)

namespace Parts.WellFormed

variable {parts : Parts}

theorem head_ne_minus (h : parts.WellFormed) {behind rest : List Char} :
    parts.whole ++ behind ≠ '-' :: rest := by
  obtain ⟨c, more, hw⟩ := List.exists_cons_of_ne_nil h.whole.1
  have hminus : c ≠ '-' := ne_of_isDigit (h.whole.2 c (hw ▸ List.mem_cons_self)) rfl
  rw [hw]
  exact fun he => hminus (List.cons.inj he).1

theorem splitSign (h : parts.WellFormed) (behind : List Char) :
    splitSign (sign parts.isNegative ++ (parts.whole ++ behind)) =
      (sign parts.isNegative, parts.whole ++ behind) := by
  rw [sign]
  cases parts.isNegative with
  | true => rfl
  | false =>
    rw [if_neg Bool.false_ne_true, List.nil_append, Decimal.splitSign]
    exact fun _ => h.head_ne_minus

theorem scan? (h : parts.WellFormed) :
    Number.Literal.scan? parts.text = some (parts.literal, []) := by
  obtain ⟨hn, hd⟩ := h.whole
  have hr : ∀ c ∈ (marked '.' parts.fraction ++ marked 'e' parts.power).head?,
      c.isDigit = false := by
    intro c hc
    cases hf : parts.fraction with
    | none =>
      rw [hf] at hc
      rw [head_marked c hc]
      rfl
    | some digits =>
      rw [hf] at hc
      cases hc
      rfl
  have hs (isNegative : Bool) := Number.scanUnsigned?_digits isNegative hn hd h.lead hr
    (scanFraction?_marked h.fraction parts.power) (scanExponent?_marked h.power)
  rw [text, sign, literal, List.append_assoc, List.append_assoc]
  cases parts.isNegative with
  | true => exact hs true
  | false =>
    rw [if_neg Bool.false_ne_true, List.nil_append, Number.Literal.scan?]
    · exact hs false
    · exact fun _ he => h.head_ne_minus he

theorem denotes (h : parts.WellFormed) : Denotes parts.text parts.literal.value :=
  ⟨parts.literal, h.scan?, rfl⟩

theorem spellOut? (h : parts.WellFormed) :
    spellOut? parts.text =
      let significant := (parts.fraction.getD []).rdropWhile (· = '0')
      let zeros := parts.power.elim 0 readPower - significant.length
      if zeros < 0 then none
      else some (sign parts.isNegative ++ parts.whole ++ significant ++
        List.replicate zeros.toNat '0') := by
  have hpoint : '.' ∉ parts.whole := h.whole.notMem rfl
  have he : 'e' ∉ sign parts.isNegative ++ parts.whole ++ marked '.' parts.fraction := by
    have hw : 'e' ∉ parts.whole := h.whole.notMem rfl
    have hf : 'e' ∉ marked '.' parts.fraction := by
      cases hp : parts.fraction with
      | none => exact List.not_mem_nil
      | some digits =>
        have hd : 'e' ∉ digits := (h.fraction digits hp).notMem rfl
        simp [marked, hd]
    have hs : 'e' ∉ sign parts.isNegative := by
      rw [sign]
      cases parts.isNegative <;> decide
    simp [hw, hf, hs]
  rw [text, Decimal.spellOut?, cutAt_marked he, List.append_assoc]
  dsimp only
  rw [h.splitSign, cutAt_marked hpoint]

end Parts.WellFormed

-- ---------------------------------------------------------------------------
-- Whole decimals
-- ---------------------------------------------------------------------------

variable {n : ℕ}

theorem isDigits_toDigits (n : ℕ) : IsDigits (Nat.toDigits 10 n) :=
  ⟨Nat.toDigits_ne_nil, Number.isDigit_toDigits n⟩

theorem toDigits_mul_pow (h : 0 < n) (k : ℕ) :
    Nat.toDigits 10 (n * 10 ^ k) = Nat.toDigits 10 n ++ List.replicate k '0' := by
  induction k with
  | zero => simp
  | succ k ih =>
    have hp : 0 < n * 10 ^ k := Nat.mul_pos h (Nat.pow_pos (by decide))
    have hd : n * 10 ^ (k + 1) = 10 * (n * 10 ^ k) + 0 := by ring
    rw [hd, ← Nat.toDigits_append_toDigits (by decide) hp (by decide), ih, List.append_assoc,
      List.replicate_succ']
    rfl

theorem rdropWhile_append_replicate (digits : List Char) :
    ∃ zeros, digits = digits.rdropWhile (· = '0') ++ List.replicate zeros '0' := by
  refine ⟨(digits.rtakeWhile (· = '0')).length, ?_⟩
  have hz : digits.rtakeWhile (· = '0') =
      List.replicate (digits.rtakeWhile (· = '0')).length '0' :=
    List.eq_replicate_iff.mpr ⟨rfl, fun c hc => by simpa using List.mem_rtakeWhile_imp hc⟩
  rw [← hz, List.rdropWhile_append_rtakeWhile]

/-- Spelled out: digits and nothing else. -/
def spelled (isNegative : Bool) (value : ℕ) : Parts :=
  { isNegative, whole := Nat.toDigits 10 value }

/-- With a point behind the digits. -/
def pointed (isNegative : Bool) (value : ℕ) : Parts :=
  { isNegative, whole := Nat.toDigits 10 value, fraction := some ['0'] }

/-- With a point behind the first of the digits, if there are others, and an exponent. -/
def raised (isNegative : Bool) (lead : Char) (rest : List Char) (exponent : ℕ) : Parts where
  isNegative := isNegative
  whole := [lead]
  fraction := if rest = [] then none else some rest
  power := some (Nat.toDigits 10 (exponent + rest.length))

theorem text_spelled (isNegative : Bool) (value : ℕ) :
    (spelled isNegative value).text = sign isNegative ++ Nat.toDigits 10 value := by
  simp [Parts.text, spelled, marked]

theorem text_pointed (isNegative : Bool) (value : ℕ) :
    (pointed isNegative value).text = sign isNegative ++ (Nat.toDigits 10 value ++ ['.', '0']) := by
  simp [Parts.text, pointed, marked]

theorem fraction_raised (isNegative : Bool) (lead : Char) (rest : List Char) (exponent : ℕ) :
    (raised isNegative lead rest exponent).fraction.getD [] = rest := by
  unfold raised
  split_ifs with h
  · exact h.symm
  · rfl

theorem spelled_wellFormed (isNegative : Bool) (value : ℕ) :
    (spelled isNegative value).WellFormed where
  whole := isDigits_toDigits value
  lead _ := Number.toDigits_zero_lead
  fraction _ h := nomatch h
  power _ h := nomatch h

theorem pointed_wellFormed (isNegative : Bool) (value : ℕ) :
    (pointed isNegative value).WellFormed where
  whole := isDigits_toDigits value
  lead _ := Number.toDigits_zero_lead
  fraction digits h := by
    cases h
    exact ⟨List.cons_ne_nil _ _, List.forall_mem_singleton.mpr rfl⟩
  power _ h := nomatch h

theorem raised_wellFormed (isNegative : Bool) {lead : Char} {rest : List Char}
    (h : ∀ c ∈ lead :: rest, c.isDigit = true) (exponent : ℕ) :
    (raised isNegative lead rest exponent).WellFormed where
  whole := ⟨List.cons_ne_nil _ _, fun c hc => h c (by simp_all [raised])⟩
  lead more hm := (List.cons.inj hm).2.symm
  fraction digits hd := by
    unfold raised at hd
    split_ifs at hd with hr
    · cases hd
    · cases hd
      exact ⟨hr, fun c hc => h c (List.mem_cons_of_mem _ hc)⟩
  power digits hd := by
    cases hd
    exact isDigits_toDigits _

theorem Parts.value_literal (parts : Parts) :
    parts.literal.value =
      factor parts.isNegative *
        (Nat.ofDigitChars 10 (parts.whole ++ parts.fraction.getD []) 0 : ℚ) *
          10 ^ (((parts.power.map fun digits => (Nat.ofDigitChars 10 digits 0 : Int)).getD 0) -
            (parts.fraction.getD []).length : ℤ) := by
  rw [Number.Literal.value, literal, ← List.map_append, Number.ofDigits_digitValue,
    List.length_map]

theorem value_spelled (isNegative : Bool) (value : ℕ) :
    (spelled isNegative value).literal.value = factor isNegative * (value : ℚ) := by
  simp [Parts.value_literal, spelled, Nat.ofDigitChars_ten_toDigits]

theorem value_pointed (isNegative : Bool) (value : ℕ) :
    (pointed isNegative value).literal.value = factor isNegative * (value : ℚ) := by
  have hd : Nat.ofDigitChars 10 (Nat.toDigits 10 value ++ ['0']) 0 = 10 * value := by
    rw [Nat.ofDigitChars_append, Nat.ofDigitChars_ten_toDigits]
    rfl
  have hp : (10 : ℚ) ^ ((0 : ℤ) - (['0'].length : ℕ)) = 10⁻¹ := by norm_num
  rw [Parts.value_literal]
  simp only [pointed, Option.getD_some, Option.map_none, Option.getD_none, hd, hp]
  push_cast
  ring

theorem value_raised (isNegative : Bool) (lead : Char) (rest : List Char) (exponent : ℕ) :
    (raised isNegative lead rest exponent).literal.value =
      factor isNegative * (Nat.ofDigitChars 10 (lead :: rest) 0 * 10 ^ exponent : ℕ) := by
  have hp : ((exponent + rest.length : ℕ) : ℤ) - rest.length = exponent := by omega
  rw [Parts.value_literal, fraction_raised]
  simp only [raised, Option.map_some, Option.getD_some, Nat.ofDigitChars_ten_toDigits, hp,
    zpow_natCast, List.singleton_append, mul_assoc]
  push_cast
  rfl

theorem denotes_spelled (isNegative : Bool) (value : ℕ) :
    Denotes (spelled isNegative value).text (factor isNegative * value) :=
  value_spelled isNegative value ▸ (spelled_wellFormed isNegative value).denotes

theorem denotes_pointed (isNegative : Bool) (value : ℕ) :
    Denotes (pointed isNegative value).text (factor isNegative * value) :=
  value_pointed isNegative value ▸ (pointed_wellFormed isNegative value).denotes

theorem denotes_raised (isNegative : Bool) {lead : Char} {rest : List Char}
    (hd : Nat.toDigits 10 n = lead :: rest) (exponent : ℕ) :
    Denotes (raised isNegative lead rest exponent).text
      (factor isNegative * (n * 10 ^ exponent : ℕ)) := by
  have hdigits : ∀ c ∈ lead :: rest, c.isDigit = true := hd ▸ Number.isDigit_toDigits n
  have hn : Nat.ofDigitChars 10 (lead :: rest) 0 = n := hd ▸ Nat.ofDigitChars_ten_toDigits
  have hv := value_raised isNegative lead rest exponent
  rw [hn] at hv
  exact hv ▸ (raised_wellFormed isNegative hdigits exponent).denotes

theorem spellOut?_pointed (isNegative : Bool) (value : ℕ) :
    spellOut? (pointed isNegative value).text = some (spelled isNegative value).text := by
  have hs : (['0'] : List Char).rdropWhile (· = '0') = [] := by simp [List.rdropWhile_singleton]
  rw [(pointed_wellFormed isNegative value).spellOut?, text_spelled]
  simp only [pointed, Option.getD_some, hs]
  simp

theorem spellOut?_raised (isNegative : Bool) {lead : Char} {rest : List Char} (hn : 0 < n)
    (hd : Nat.toDigits 10 n = lead :: rest) {exponent : ℕ}
    (hk : exponent + rest.length < 2 ^ 31) :
    spellOut? (raised isNegative lead rest exponent).text =
      some (spelled isNegative (n * 10 ^ exponent)).text := by
  have hdigits : ∀ c ∈ lead :: rest, c.isDigit = true := hd ▸ Number.isDigit_toDigits n
  have hp : readPower (Nat.toDigits 10 (exponent + rest.length)) =
      (exponent + rest.length : ℕ) := by
    have hv : Nat.ofDigitChars 10 (Nat.toDigits 10 (exponent + rest.length)) 0 =
        exponent + rest.length := Nat.ofDigitChars_ten_toDigits
    rw [readPower_digits (isDigits_toDigits _) (by omega), hv]
  rw [(raised_wellFormed isNegative hdigits _).spellOut?, fraction_raised, text_spelled,
    toDigits_mul_pow hn, hd]
  simp only [raised, Option.elim_some, hp]
  -- the zeros at the end of the fraction are among those that are added
  obtain ⟨zeros, hz⟩ := rdropWhile_append_replicate rest
  generalize rest.rdropWhile (· = '0') = significant at hz
  have hzeros : ((exponent + rest.length : ℕ) : ℤ) - significant.length =
      (zeros + exponent : ℕ) := by
    rw [hz, List.length_append, List.length_replicate]
    omega
  rw [hzeros, if_neg (by omega), Int.toNat_natCast, List.replicate_add, hz]
  simp

-- ---------------------------------------------------------------------------
-- Written decimals
-- ---------------------------------------------------------------------------

theorem toList_zeros (count : ℕ) : (zeros count).toList = List.replicate count '0' :=
  String.toList_ofList

theorem toList_digitText (d : Decimal) : d.digitText.toList = Nat.toDigits 10 d.digits :=
  Text.toList_natText d.digits

theorem toList_wholeText (hn : 0 < n) (exponent : ℕ) :
    (⟨n, exponent⟩ : Decimal).wholeText.toList = Nat.toDigits 10 (n * 10 ^ exponent) := by
  rw [wholeText, String.toList_append, toList_digitText, toList_zeros, Int.toNat_natCast,
    toDigits_mul_pow hn]

variable {lead : Char} {rest : List Char}

theorem magnitude_whole (hd : Nat.toDigits 10 n = lead :: rest) (exponent : ℕ) :
    (⟨n, exponent⟩ : Decimal).magnitude = (exponent + rest.length : ℕ) := by
  rw [magnitude, ← String.length_toList, toList_digitText, hd, List.length_cons]
  dsimp only
  omega

/-- A whole decimal up to sixteen digits is written with a point, a longer one with an exponent. -/
theorem toList_render (hn : 0 < n) (hd : Nat.toDigits 10 n = lead :: rest) (exponent : ℕ)
    (isNegative : Bool) :
    sign isNegative ++ ((⟨n, exponent⟩ : Decimal).render "").toList =
      if exponent + rest.length ≤ 15 then (pointed isNegative (n * 10 ^ exponent)).text
      else (raised isNegative lead rest exponent).text := by
  have hm := magnitude_whole hd exponent
  rw [render]
  split_ifs with hr hl hl
  · rw [positional, if_pos (Int.natCast_nonneg exponent), String.toList_append,
      toList_wholeText hn, text_pointed]
    rfl
  · simp only [hm, Bool.and_eq_true, decide_eq_true_eq] at hr
    omega
  · simp only [hm, Bool.and_eq_true, decide_eq_true_eq] at hr
    omega
  · have hp (power : ℕ) : (toString (power : Int)).toList = Nat.toDigits 10 power := by
      rw [Text.toList_intText, if_pos (Int.natCast_nonneg power), Int.natAbs_natCast]
    rw [scientific, hm, toList_digitText, hd, raised, Parts.text]
    simp only [String.toList_append, hp]
    cases rest <;> simp [marked]

/-- However a whole decimal is written, it denotes its value, and it can be spelled out. -/
theorem render_whole (hn : 0 < n) {exponent : ℕ} (hb : n * 10 ^ exponent < 10 ^ 22)
    (isNegative : Bool) :
    let text := sign isNegative ++ ((⟨n, exponent⟩ : Decimal).render "").toList
    Denotes text (factor isNegative * (n * 10 ^ exponent : ℕ)) ∧
      spellOut? text = some (spelled isNegative (n * 10 ^ exponent)).text := by
  obtain ⟨lead, rest, hd⟩ := List.exists_cons_of_ne_nil (Nat.toDigits_ne_nil (b := 10) (n := n))
  have hlength : exponent + rest.length < 22 := by
    have hl := (Nat.length_toDigits_le_iff (by decide) (by decide)).mpr hb
    rw [toDigits_mul_pow hn, hd, List.length_append, List.length_replicate,
      List.length_cons] at hl
    omega
  dsimp only
  rw [toList_render hn hd]
  split_ifs
  · exact ⟨denotes_pointed isNegative _, spellOut?_pointed isNegative _⟩
  · exact ⟨denotes_raised isNegative hd exponent, spellOut?_raised isNegative hn hd (by omega)⟩

end Decimal

end DeclarativeSql
