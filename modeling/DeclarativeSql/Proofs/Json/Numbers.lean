import Mathlib.Data.List.TakeWhile
import Mathlib.Tactic.SplitIfs
import DeclarativeSql.Json.Reader

/-!
# Written numbers read back

Whole numbers of 64 bits, with or without a sign, are read as they were written. For other
values that is a property of the single number, `Number.ReadsBack`: digits are turned into a
binary value with one rounding too many, so the nearest value is not always found again.
Whether a number reads back does not depend on what follows it in a document.
-/

namespace DeclarativeSql

/-- The text of the number is read as the same number. -/
def Number.ReadsBack (number : Number) : Prop :=
  Json.readNumber number.wireText.toList = (.number number, some [])

/-- The range of whole numbers that stay integers. -/
def Number.IsWord (value : Int) : Prop :=
  -(Nat.pow 2 63 : Int) ≤ value ∧ value < Nat.pow 2 64

/-- What may stand behind a number does not continue it. -/
def Json.Ends (rest : List Char) : Prop :=
  ∀ c ∈ rest.head?, c ∈ [',', ']', '\x7d']

namespace Number

-- ---------------------------------------------------------------------------
-- What follows a number
-- ---------------------------------------------------------------------------

theorem spanDigits_stop {rest : List Char} (h : ∀ c ∈ rest.head?, c.isDigit = false) :
    spanDigits rest = ([], rest) := by
  cases rest with
  | nil => rfl
  | cons c rest => simp [spanDigits, h c rfl]

theorem spanDigits_cons {c : Char} (h : c.isDigit = true) (s : List Char) :
    spanDigits (c :: s) = (digitValue c :: (spanDigits s).1, (spanDigits s).2) := by
  simp [spanDigits, h]

/-- Digits that end inside a text end there whatever follows it. -/
theorem spanDigits_append {s rest : List Char}
    (h : (spanDigits s).2 = [] → ∀ c ∈ rest.head?, c.isDigit = false) :
    spanDigits (s ++ rest) = ((spanDigits s).1, (spanDigits s).2 ++ rest) := by
  induction s with
  | nil => exact spanDigits_stop (h rfl)
  | cons c s ih =>
    cases hc : c.isDigit with
    | true =>
      rw [spanDigits_cons hc] at h ⊢
      rw [List.cons_append, spanDigits_cons hc, ih h]
    | false =>
      rw [List.cons_append, spanDigits_stop (by simp [hc]), spanDigits_stop (by simp [hc])]
      rfl

end Number

theorem Json.Ends.cases {rest : List Char} (h : Json.Ends rest) :
    rest = [] ∨ ∃ c tail, rest = c :: tail ∧ (c = ',' ∨ c = ']' ∨ c = '\x7d') := by
  cases rest with
  | nil => exact .inl rfl
  | cons c tail => exact .inr ⟨c, tail, rfl, by simpa using h c rfl⟩

theorem Json.Ends.not_digit {rest : List Char} (h : Json.Ends rest) :
    ∀ c ∈ rest.head?, c.isDigit = false := by
  rcases h.cases with rfl | ⟨c, tail, rfl, rfl | rfl | rfl⟩ <;> simp

namespace Number.Literal

theorem scanFraction?_point (s : List Char) :
    scanFraction? ('.' :: s) =
      if (spanDigits s).1 = [] then none else some (spanDigits s) := by
  rw [scanFraction?]
  cases spanDigits s with
  | mk digits left => cases digits <;> rfl

theorem scanFraction?_absent {s : List Char} (h : s.head? ≠ some '.') :
    scanFraction? s = some ([], s) := by
  rw [scanFraction?]
  rintro rest rfl
  exact h rfl

theorem scanFraction?_append {s rest left : List Char} {digits : List Nat} (he : Json.Ends rest)
    (h : scanFraction? s = some (digits, left)) :
    scanFraction? (s ++ rest) = some (digits, left ++ rest) := by
  by_cases hp : s.head? = some '.'
  · obtain ⟨s, rfl⟩ := List.head?_eq_some_iff.mp hp
    rw [scanFraction?_point] at h
    rw [List.cons_append, scanFraction?_point, spanDigits_append fun _ => he.not_digit]
    split_ifs at h ⊢
    cases h
    rfl
  · rw [scanFraction?_absent hp] at h
    cases h
    refine scanFraction?_absent ?_
    rw [List.head?_append]
    rcases he.cases with rfl | ⟨c, tail, rfl, rfl | rfl | rfl⟩ <;> cases s <;> simp_all

theorem scanPower?_eq (sign : Int) (s : List Char) :
    scanPower? sign s =
      if (spanDigits s).1 = [] then none
      else some (some (sign * ofDigits (spanDigits s).1), (spanDigits s).2) := by
  rw [scanPower?]
  cases spanDigits s with
  | mk digits left => cases digits <;> rfl

theorem scanPower?_append {sign : Int} {s rest left : List Char} {power : Option Int}
    (he : Json.Ends rest) (h : scanPower? sign s = some (power, left)) :
    scanPower? sign (s ++ rest) = some (power, left ++ rest) := by
  rw [scanPower?_eq] at h ⊢
  rw [spanDigits_append fun _ => he.not_digit]
  split_ifs at h ⊢
  cases h
  rfl

theorem scanExponent?_absent {s : List Char} (h : ∀ c ∈ s.head?, c ≠ 'e' ∧ c ≠ 'E') :
    scanExponent? s = some (none, s) := by
  cases s with
  | nil => rfl
  | cons c s =>
    obtain ⟨he, hE⟩ := h c rfl
    simp [scanExponent?, he, hE]

theorem scanExponent?_append {s rest left : List Char} {power : Option Int}
    (he : Json.Ends rest) (h : scanExponent? s = some (power, left)) :
    scanExponent? (s ++ rest) = some (power, left ++ rest) := by
  cases s with
  | nil =>
    cases h
    refine scanExponent?_absent ?_
    rcases he.cases with rfl | ⟨c, tail, rfl, rfl | rfl | rfl⟩ <;> simp
  | cons c s =>
    rw [List.cons_append]
    unfold scanExponent? at h ⊢
    dsimp only at h ⊢
    split_ifs at h ⊢
    · cases s with
      | nil => cases h
      | cons d s =>
        -- which form it is shows before the rest begins
        split at h
        · next hs =>
          cases hs
          exact scanPower?_append he h
        · next hs =>
          cases hs
          exact scanPower?_append he h
        · split <;> simp_all
          exact scanPower?_append he h
    · cases h
      rfl

theorem scanUnsigned?_append {isNegative : Bool} {s rest : List Char} {literal : Literal}
    (he : Json.Ends rest) (h : scanUnsigned? isNegative s = some (literal, [])) :
    scanUnsigned? isNegative (s ++ rest) = some (literal, rest) := by
  rw [scanUnsigned?] at h ⊢
  rw [spanDigits_append fun _ => he.not_digit]
  generalize spanDigits s = digits at h ⊢
  obtain ⟨whole, left⟩ := digits
  dsimp only at h ⊢
  split at h
  · cases h
  · cases h
  · simp only [Option.bind_eq_bind, Option.bind_eq_some_iff, Option.pure_def] at h
    obtain ⟨⟨fraction, left⟩, hf, ⟨power, left⟩, hp, hl⟩ := h
    cases hl
    simp [scanFraction?_append he hf, scanExponent?_append he hp]

theorem scan?_append {s rest : List Char} {literal : Literal} (he : Json.Ends rest)
    (h : scan? s = some (literal, [])) : scan? (s ++ rest) = some (literal, rest) := by
  unfold scan? at h
  split at h
  · exact scanUnsigned?_append he h
  · next hm =>
    cases s with
    | nil => cases h
    | cons c s =>
      rw [List.cons_append, scan?]
      · exact scanUnsigned?_append he h
      · rintro other ⟨rfl, -⟩
        exact hm s rfl

end Number.Literal

namespace Number

theorem readNumber_eq_some {s rest : List Char} {number : Number} :
    Json.readNumber s = (.number number, some rest) ↔
      ∃ literal, Literal.scan? s = some (literal, rest) ∧ ofLiteral? literal = some number := by
  unfold Json.readNumber
  cases Literal.scan? s with
  | none => simp
  | some found =>
    obtain ⟨literal, left⟩ := found
    simp only [Option.some.injEq, Prod.mk.injEq]
    constructor
    · intro h
      cases ho : ofLiteral? literal with
      | none => simp [ho] at h
      | some value =>
        simp only [ho, Prod.mk.injEq, Node.number.injEq, Option.some.injEq] at h
        obtain ⟨rfl, rfl⟩ := h
        exact ⟨literal, ⟨rfl, rfl⟩, ho⟩
    · rintro ⟨_, ⟨rfl, rfl⟩, ho⟩
      rw [ho]

/-- A number that reads back does so wherever it stands in a document. -/
theorem ReadsBack.readNumber_append {number : Number} (h : number.ReadsBack) {rest : List Char}
    (he : Json.Ends rest) :
    Json.readNumber (number.wireText.toList ++ rest) = (.number number, some rest) := by
  obtain ⟨literal, hs, hl⟩ := readNumber_eq_some.mp h
  exact readNumber_eq_some.mpr ⟨literal, Literal.scan?_append he hs, hl⟩

theorem scan?_start {s rest : List Char} {literal : Literal}
    (h : Literal.scan? s = some (literal, rest)) :
    ∃ c tail, s = c :: tail ∧ (c = '-' ∨ c.isDigit = true) := by
  unfold Literal.scan? at h
  split at h
  · exact ⟨_, _, rfl, .inl rfl⟩
  · cases s with
    | nil => cases h
    | cons c s =>
      refine ⟨c, s, rfl, .inr ?_⟩
      by_contra hc
      rw [Bool.not_eq_true] at hc
      rw [Literal.scanUnsigned?, spanDigits_stop (by simp [hc])] at h
      cases h

/-- The text of a number starts with a sign or a digit. -/
theorem ReadsBack.start {number : Number} (h : number.ReadsBack) :
    ∃ c s, number.wireText.toList = c :: s ∧ (c = '-' ∨ c.isDigit = true) := by
  obtain ⟨literal, hs, _⟩ := readNumber_eq_some.mp h
  exact scan?_start hs

-- ---------------------------------------------------------------------------
-- Whole numbers
-- ---------------------------------------------------------------------------

theorem ofDigits_digitValue (digits : List Char) :
    ofDigits (digits.map digitValue) = Nat.ofDigitChars 10 digits 0 := by
  rw [ofDigits, List.foldl_map, Nat.ofDigitChars_eq_foldl]
  rfl

theorem le_foldl_digits (digits : List Nat) (value : Nat) :
    value ≤ digits.foldl (fun value digit => 10 * value + digit) value := by
  induction digits generalizing value with
  | nil => exact Nat.le_refl _
  | cons digit rest ih =>
    have hv : value ≤ 10 * value + digit := by omega
    exact Nat.le_trans hv (ih _)

/-- Digits whose value fits 64 bits all fit the significand. -/
theorem gather_eq {digits : List Nat} {significand : Nat}
    (h : digits.foldl (fun value digit => 10 * value + digit) significand < Nat.pow 2 64) :
    gather significand digits =
      (digits.foldl (fun value digit => 10 * value + digit) significand, []) := by
  induction digits generalizing significand with
  | nil => rfl
  | cons digit rest ih =>
    rw [List.foldl_cons] at h ⊢
    have hs : 10 * significand + digit < Nat.pow 2 64 :=
      Nat.lt_of_le_of_lt (le_foldl_digits rest _) h
    rw [gather, Nat.mul_comm significand 10, if_pos hs]
    exact ih h

theorem gather_lt {digits : List Nat} {significand : Nat} (h : significand < Nat.pow 2 64) :
    (gather significand digits).1 < Nat.pow 2 64 := by
  induction digits generalizing significand with
  | nil => exact h
  | cons digit rest ih =>
    rw [gather]
    split
    · next hs => exact ih hs
    · exact h

/-- Only zero is written with a leading zero. -/
theorem toDigits_zero_lead {n : Nat} {rest : List Char} (h : Nat.toDigits 10 n = '0' :: rest) :
    rest = [] := by
  induction n using Nat.strongRecOn generalizing rest with
  | ind n ih =>
    by_cases hn : n < 10
    · rw [Nat.toDigits_of_lt_base hn, List.cons.injEq] at h
      exact h.2.symm
    · rw [Nat.toDigits_of_base_le (by omega) (by omega)] at h
      cases hd : Nat.toDigits 10 (n / 10) with
      | nil => exact absurd hd Nat.toDigits_ne_nil
      | cons c digits =>
        rw [hd, List.cons_append, List.cons.injEq] at h
        obtain ⟨rfl, -⟩ := h
        have hv : Nat.ofDigitChars 10 (Nat.toDigits 10 (n / 10)) 0 = n / 10 :=
          Nat.ofDigitChars_ten_toDigits
        rw [hd, ih (n / 10) (by omega) hd] at hv
        have hz : 0 = n / 10 := hv
        omega

theorem isDigit_toDigits (n : Nat) : ∀ c ∈ Nat.toDigits 10 n, c.isDigit = true :=
  fun _ hc => Nat.isDigit_of_mem_toDigits (by omega) (by omega) hc

theorem spanDigits_digits {digits rest : List Char} (hd : ∀ c ∈ digits, c.isDigit = true)
    (hr : ∀ c ∈ rest.head?, c.isDigit = false) :
    spanDigits (digits ++ rest) = (digits.map digitValue, rest) := by
  induction digits with
  | nil => exact spanDigits_stop hr
  | cons c digits ih =>
    obtain ⟨hc, hd⟩ := List.forall_mem_cons.mp hd
    rw [List.cons_append, spanDigits_cons hc, ih hd]
    rfl

/-- Digits in front, without a zero before others; what follows is fraction and exponent. -/
theorem scanUnsigned?_digits (isNegative : Bool) {digits rest middle left : List Char}
    {fraction : List Nat} {power : Option Int} (hn : digits ≠ [])
    (hd : ∀ c ∈ digits, c.isDigit = true) (hz : ∀ more, digits = '0' :: more → more = [])
    (hr : ∀ c ∈ rest.head?, c.isDigit = false)
    (hf : Literal.scanFraction? rest = some (fraction, middle))
    (he : Literal.scanExponent? middle = some (power, left)) :
    Literal.scanUnsigned? isNegative (digits ++ rest) =
      some (⟨isNegative, digits.map digitValue, fraction, power⟩, left) := by
  rw [Literal.scanUnsigned?, spanDigits_digits hd hr]
  cases digits with
  | nil => exact absurd rfl hn
  | cons c digits =>
    dsimp only
    split
    · next h => cases h
    · next digit more h =>
      -- a zero in front stands alone
      rw [List.map_cons, List.cons.injEq] at h
      have hc : c = '0' := by
        have hr := Char.isDigit_iff_toNat.mp (hd c List.mem_cons_self)
        have hv : c.toNat - '0'.toNat = 0 := h.1
        exact Char.toNat_inj.mp (by omega)
      rw [hz digits (hc ▸ rfl)] at h
      cases h.2
    · simp only [Option.bind_eq_bind, Option.pure_def, hf, he, Option.bind_some]

theorem scanUnsigned?_toDigits (isNegative : Bool) (n : Nat) :
    Literal.scanUnsigned? isNegative (Nat.toDigits 10 n) =
      some (⟨isNegative, (Nat.toDigits 10 n).map digitValue, [], none⟩, []) := by
  have hr : ∀ c ∈ ([] : List Char).head?, c.isDigit = false := by simp
  have h := scanUnsigned?_digits isNegative Nat.toDigits_ne_nil (isDigit_toDigits n)
    (fun _ => toDigits_zero_lead) hr rfl rfl
  rwa [List.append_nil] at h

theorem ofLiteral?_toDigits {n : Nat} (h : n < Nat.pow 2 64) (isNegative : Bool) :
    ofLiteral? ⟨isNegative, (Nat.toDigits 10 n).map digitValue, [], none⟩ =
      if !isNegative then some (.int n)
      else if 0 < n && n ≤ Nat.pow 2 63 then some (.int (-n))
      else ofScaled? true n 0 := by
  have hv : ((Nat.toDigits 10 n).map digitValue).foldl (fun value digit => 10 * value + digit) 0 =
      n := by
    rw [← ofDigits, ofDigits_digitValue, Nat.ofDigitChars_ten_toDigits]
  rw [ofLiteral?, gather_eq (by rw [hv]; exact h), hv]

theorem scan?_toDigits (n : Nat) :
    Literal.scan? (Nat.toDigits 10 n) =
      some (⟨false, (Nat.toDigits 10 n).map digitValue, [], none⟩, []) := by
  rw [Literal.scan?]
  · exact scanUnsigned?_toDigits false n
  · intro rest h
    have hm : '-' ∈ Nat.toDigits 10 n := h ▸ List.mem_cons_self
    cases Nat.isDigit_of_mem_toDigits (by omega) (by omega) hm

theorem readsBack_natural {n : Nat} (h : n < Nat.pow 2 64) : ReadsBack (.int n) := by
  have ht : (wireText (.int n)).toList = Nat.toDigits 10 n := Nat.toList_repr
  rw [ReadsBack, ht, readNumber_eq_some]
  exact ⟨_, scan?_toDigits n, ofLiteral?_toDigits h false⟩

theorem readsBack_negative {n : Nat} (hp : 0 < n) (h : n ≤ Nat.pow 2 63) :
    ReadsBack (.int (-n)) := by
  have ht : (wireText (.int (-n))).toList = '-' :: Nat.toDigits 10 n := by
    obtain ⟨k, rfl⟩ : ∃ k, n = k + 1 := ⟨n - 1, by omega⟩
    have hs : (wireText (.int (-(k + 1 : Nat)))).toList = ("-" ++ (k + 1).repr).toList := rfl
    rw [hs, String.toList_append, Nat.toList_repr]
    rfl
  have hn : n < Nat.pow 2 64 := Nat.lt_of_le_of_lt h (by decide)
  have hl := ofLiteral?_toDigits hn true
  rw [if_neg (by simp), if_pos (by simp [hp, h])] at hl
  rw [ReadsBack, ht, readNumber_eq_some]
  exact ⟨_, scanUnsigned?_toDigits true n, hl⟩

theorem readsBack_int {value : Int} (h : IsWord value) : ReadsBack (.int value) := by
  obtain ⟨hl, hh⟩ := h
  have h63 : Nat.pow 2 63 = 9223372036854775808 := rfl
  have h64 : Nat.pow 2 64 = 18446744073709551616 := rfl
  by_cases hn : 0 ≤ value
  · obtain ⟨n, rfl⟩ := Int.eq_ofNat_of_zero_le hn
    exact readsBack_natural (by omega)
  · obtain ⟨n, hv⟩ := Int.eq_ofNat_of_zero_le (show 0 ≤ -value by omega)
    obtain rfl : value = -n := by omega
    exact readsBack_negative (by omega) (by omega)

theorem isWord_of_ofLiteral? {literal : Literal} {value : Int}
    (h : ofLiteral? literal = some (.int value)) : IsWord value := by
  have h63 : Nat.pow 2 63 = 9223372036854775808 := rfl
  have h64 : Nat.pow 2 64 = 18446744073709551616 := rfl
  have hg : (gather 0 literal.whole).1 < Nat.pow 2 64 := gather_lt (by decide)
  unfold ofLiteral? at h
  generalize gather 0 literal.whole = gathered at h hg
  obtain ⟨significand, extra⟩ := gathered
  dsimp only at h hg
  split at h
  · split_ifs at h with hs hr
    · cases h
      constructor <;> omega
    · cases h
      simp only [Bool.and_eq_true, decide_eq_true_eq] at hr
      constructor <;> omega
    · simp [ofScaled?] at h
  · split_ifs at h
    · simp [ofScaled?] at h
    · simp [ofHugeExponent?] at h

end Number
end DeclarativeSql
