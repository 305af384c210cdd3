import Mathlib.Algebra.Field.Rat
import Mathlib.Algebra.Order.Ring.Rat
import Mathlib.Tactic.Positivity
import Mathlib.Tactic.Ring
import DeclarativeSql.Decimal.Shortest

/-!
# The shortest decimals of whole values

A whole value is a point of the grid of the units, so the search for the coarsest grid that has a
decimal for it ends there at the latest: the decimal has no fraction. It rounds to the value, from
which it follows that it is at most twice as large.
-/

namespace DeclarativeSql.Binary64

/-- The magnitude of a finite value. -/
def magnitude (x : Binary64) : ℚ :=
  x.significand * 2 ^ x.exponent

variable {x : Binary64} {n : ℕ} {grid : Int}

-- ---------------------------------------------------------------------------
-- Magnitudes
-- ---------------------------------------------------------------------------

theorem two_zpow_mul (exponent : ℤ) :
    (2 : ℚ) ^ exponent * 2 ^ (-exponent).toNat = 2 ^ exponent.toNat := by
  rw [← zpow_natCast, ← zpow_natCast, ← zpow_add₀ two_ne_zero]
  congr 1
  omega

/-- Both sides without negative powers. -/
theorem magnitude_mul (x : Binary64) :
    x.magnitude * 2 ^ (-x.exponent).toNat = (x.significand * 2 ^ x.exponent.toNat : ℕ) := by
  rw [magnitude, mul_assoc, two_zpow_mul]
  push_cast
  rfl

theorem magnitude_eq_iff :
    x.magnitude = n ↔ x.significand * 2 ^ x.exponent.toNat = n * 2 ^ (-x.exponent).toNat := by
  have hp : (2 : ℚ) ^ (-x.exponent).toNat ≠ 0 := by positivity
  rw [← mul_left_inj' hp, magnitude_mul]
  norm_cast

theorem isIntegral_iff : x.isIntegral = true ↔ ∃ n : ℕ, x.magnitude = n := by
  simp only [magnitude_eq_iff, isIntegral, beq_iff_eq]
  constructor
  · intro h
    obtain ⟨k, hk⟩ := Nat.dvd_of_mod_eq_zero h
    exact ⟨k * 2 ^ x.exponent.toNat, by rw [hk, Nat.pow_eq]; ring⟩
  · rintro ⟨n, hn⟩
    refine Nat.mod_eq_zero_of_dvd ?_
    -- one of the two powers is one
    rcases Int.le_total 0 x.exponent with he | he
    · rw [Int.toNat_eq_zero.mpr (Int.neg_nonpos_of_nonneg he)]
      exact Nat.one_dvd _
    · rw [Int.toNat_eq_zero.mpr he, Nat.pow_zero, Nat.mul_one] at hn
      exact ⟨n, by rw [hn, Nat.pow_eq, Nat.mul_comm]⟩

theorem isBelow_iff {bound : ℕ} : x.isBelow bound = true ↔ x.magnitude < bound := by
  have hp : (0 : ℚ) < 2 ^ (-x.exponent).toNat := by positivity
  rw [isBelow, decide_eq_true_eq, ← mul_lt_mul_iff_left₀ hp, magnitude_mul]
  norm_cast

theorem isZero_iff : x.isZero = true ↔ x.magnitude = 0 := by
  have hp : (2 : ℚ) ^ x.exponent ≠ 0 := zpow_ne_zero _ two_ne_zero
  simp [isZero, magnitude, hp]

-- ---------------------------------------------------------------------------
-- Points of a grid
-- ---------------------------------------------------------------------------

theorem binaryFactor_pos (x : Binary64) (grid : Int) : 0 < x.binaryFactor grid :=
  Nat.mul_pos (Nat.pow_pos (by decide)) (Nat.pow_pos (by decide))

theorem decimalFactor_pos (x : Binary64) (grid : Int) : 0 < x.decimalFactor grid :=
  Nat.mul_pos (Nat.pow_pos (by decide)) (Nat.pow_pos (by decide))

/-- The lower end of the interval that rounds to the value, in quarters of a unit. -/
def lowerEnd (x : Binary64) : ℕ :=
  if x.isNarrowBelow then 4 * x.significand - 1 else 4 * x.significand - 2

theorem le_lowerEnd (x : Binary64) : 4 * x.significand - 2 ≤ x.lowerEnd := by
  unfold lowerEnd
  split <;> omega

theorem lowerEnd_lt (hs : 0 < x.significand) : x.lowerEnd < 4 * x.significand := by
  unfold lowerEnd
  split <;> omega

theorem roundsFrom_iff {digits : ℕ} : x.roundsFrom grid digits = true ↔
    let low := x.lowerEnd * x.binaryFactor grid
    let high := (4 * x.significand + 2) * x.binaryFactor grid
    let point := digits * x.decimalFactor grid
    if x.significand % 2 = 0 then low ≤ point ∧ point ≤ high else low < point ∧ point < high := by
  rw [roundsFrom, ← lowerEnd]
  dsimp only
  split <;> rw [Bool.and_eq_true, decide_eq_true_eq, decide_eq_true_eq]

/-- The ends of the interval, whether they belong to it or not. -/
theorem roundsFrom_bounds {digits : ℕ} (h : x.roundsFrom grid digits = true) :
    (4 * x.significand - 2) * x.binaryFactor grid ≤ digits * x.decimalFactor grid ∧
      digits * x.decimalFactor grid ≤ (4 * x.significand + 2) * x.binaryFactor grid := by
  have hl := Nat.mul_le_mul_right (x.binaryFactor grid) x.le_lowerEnd
  have hr := roundsFrom_iff.mp h
  dsimp only at hr
  split at hr <;> omega

/-- A point of the grid that is the value itself rounds to it. -/
theorem roundsFrom_of_eq {digits : ℕ} (hs : 0 < x.significand)
    (h : 4 * x.significand * x.binaryFactor grid = digits * x.decimalFactor grid) :
    x.roundsFrom grid digits = true := by
  have hb := x.binaryFactor_pos grid
  have hlow : x.lowerEnd * x.binaryFactor grid < 4 * x.significand * x.binaryFactor grid :=
    Nat.mul_lt_mul_of_pos_right (lowerEnd_lt hs) hb
  have hhigh : 4 * x.significand * x.binaryFactor grid <
      (4 * x.significand + 2) * x.binaryFactor grid :=
    Nat.mul_lt_mul_of_pos_right (by omega) hb
  rw [roundsFrom_iff]
  dsimp only
  split <;> omega

theorem nearestOnGrid?_some {decimal : Decimal} (h : x.nearestOnGrid? grid = some decimal) :
    decimal.exponent = grid ∧ x.roundsFrom grid decimal.digits = true := by
  unfold nearestOnGrid? at h
  dsimp only at h
  split_ifs at h <;> cases h <;> exact ⟨rfl, ‹_›⟩

theorem nearestOnGrid?_of_eq {digits : ℕ} (hs : 0 < x.significand)
    (h : 4 * x.significand * x.binaryFactor grid = digits * x.decimalFactor grid) :
    x.nearestOnGrid? grid = some ⟨digits, grid⟩ := by
  have hd := x.decimalFactor_pos grid
  have hbelow : digits * x.decimalFactor grid / x.decimalFactor grid = digits :=
    Nat.mul_div_cancel _ hd
  have hmiddle : 2 * (digits * x.decimalFactor grid) <
      (2 * digits + 1) * x.decimalFactor grid := by
    rw [Nat.add_mul, Nat.mul_assoc]
    omega
  unfold nearestOnGrid?
  simp only [h, hbelow, if_pos hmiddle, if_pos (roundsFrom_of_eq hs h)]

-- ---------------------------------------------------------------------------
-- Whole values
-- ---------------------------------------------------------------------------

theorem four_mul_significand (h : x.magnitude = n) :
    4 * x.significand * 2 ^ (x.exponent - 2).toNat = n * 2 ^ (2 - x.exponent).toNat := by
  have hz : (2 : ℚ) ^ x.exponent = 4 * 2 ^ (x.exponent - 2) := by
    rw [zpow_sub₀ two_ne_zero]
    norm_num
    ring
  have hm := two_zpow_mul (x.exponent - 2)
  rw [Int.neg_sub] at hm
  have hq : (4 * x.significand * 2 ^ (x.exponent - 2).toNat : ℚ) =
      n * 2 ^ (2 - x.exponent).toNat := by
    rw [← hm, ← h, magnitude, hz]
    ring
  exact_mod_cast hq

theorem significand_pos (h : x.magnitude = n) (hn : 0 < n) : 0 < x.significand := by
  have hf := four_mul_significand h
  have hp : 0 < n * 2 ^ (2 - x.exponent).toNat := Nat.mul_pos hn (Nat.pow_pos (by decide))
  rw [← hf] at hp
  by_contra hs
  simp [Nat.eq_zero_of_not_pos hs] at hp

/-- The grid of the units has a point for a whole value: the value. -/
theorem nearestOnGrid?_units (h : x.magnitude = n) (hn : 0 < n) :
    x.nearestOnGrid? 0 = some ⟨n, 0⟩ := by
  refine nearestOnGrid?_of_eq (significand_pos h hn) ?_
  have hf := four_mul_significand h
  simpa [binaryFactor, decimalFactor] using hf

theorem coarsestGrid_bounds (h : x.magnitude = n) (hn : 0 < n) (hb : n < 10 ^ 21) :
    0 ≤ x.coarsestGrid ∧ x.coarsestGrid ≤ 23 := by
  have hs := significand_pos h hn
  have hm := magnitude_eq_iff.mp h
  have hl : 2 ^ x.significand.log2 ≤ x.significand := Nat.log2_self_le (by omega)
  have hh : x.significand < 2 ^ (x.significand.log2 + 1) := Nat.lt_log2_self
  have hlow : (-x.exponent).toNat < x.significand.log2 + 1 + x.exponent.toNat := by
    rw [← Nat.pow_lt_pow_iff_right (show 1 < 2 by decide)]
    calc 2 ^ (-x.exponent).toNat
        ≤ n * 2 ^ (-x.exponent).toNat := Nat.le_mul_of_pos_left _ hn
      _ = x.significand * 2 ^ x.exponent.toNat := hm.symm
      _ < 2 ^ (x.significand.log2 + 1) * 2 ^ x.exponent.toNat :=
        Nat.mul_lt_mul_of_pos_right hh (Nat.pow_pos (by decide))
      _ = 2 ^ (x.significand.log2 + 1 + x.exponent.toNat) := (Nat.pow_add ..).symm
  have hhigh : x.significand.log2 + x.exponent.toNat < 70 + (-x.exponent).toNat := by
    rw [← Nat.pow_lt_pow_iff_right (show 1 < 2 by decide)]
    calc 2 ^ (x.significand.log2 + x.exponent.toNat)
        = 2 ^ x.significand.log2 * 2 ^ x.exponent.toNat := Nat.pow_add ..
      _ ≤ x.significand * 2 ^ x.exponent.toNat := Nat.mul_le_mul_right _ hl
      _ = n * 2 ^ (-x.exponent).toNat := hm
      _ < 2 ^ 70 * 2 ^ (-x.exponent).toNat :=
        Nat.mul_lt_mul_of_pos_right (Nat.lt_trans hb (by decide)) (Nat.pow_pos (by decide))
      _ = 2 ^ (70 + (-x.exponent).toNat) := (Nat.pow_add ..).symm
  unfold coarsestGrid
  omega

/-- A search that goes down ends no later than at a place where there is something to find. -/
theorem findSome?_descending {found : Int → Option Decimal} {grids : List Int}
    (hs : grids.Pairwise (· > ·)) (hm : grid ∈ grids) (hf : found grid ≠ none) :
    ∃ coarse decimal, grid ≤ coarse ∧ found coarse = some decimal ∧
      grids.findSome? found = some decimal := by
  cases he : grids.findSome? found with
  | none => exact absurd (List.findSome?_eq_none_iff.mp he grid hm) hf
  | some decimal =>
    obtain ⟨before, coarse, after, rfl, hd, hbefore⟩ := List.findSome?_eq_some_iff.mp he
    refine ⟨coarse, decimal, ?_, hd, rfl⟩
    rcases List.mem_append.mp hm with hm | hm
    · exact absurd (hbefore grid hm) hf
    · rcases List.mem_cons.mp hm with rfl | hm
      · exact Int.le_refl _
      · have hafter := (List.pairwise_cons.mp (List.pairwise_append.mp hs).2.1).1
        exact Int.le_of_lt (hafter grid hm)

theorem shortest_whole (h : x.magnitude = n) (hn : 0 < n) (hb : n < 10 ^ 21) :
    ∃ digits exponent : ℕ, x.shortest = ⟨digits, exponent⟩ ∧
      x.roundsFrom exponent digits = true := by
  have hz : ¬ x.isZero = true := by
    rw [isZero_iff, h]
    exact_mod_cast hn.ne'
  obtain ⟨hlow, hhigh⟩ := coarsestGrid_bounds h hn hb
  have hsorted : ((List.range 24).map fun (step : Nat) =>
      x.coarsestGrid - (step : Int)).Pairwise (· > ·) := by
    rw [List.pairwise_map]
    exact List.pairwise_lt_range.imp fun hlt => by omega
  have hunits : 0 ∈ (List.range 24).map fun (step : Nat) => x.coarsestGrid - (step : Int) :=
    List.mem_map.mpr ⟨x.coarsestGrid.toNat, List.mem_range.mpr (by omega), by omega⟩
  have hfound : x.nearestOnGrid? 0 ≠ none := by
    rw [nearestOnGrid?_units h hn]
    exact Option.some_ne_none _
  obtain ⟨grid, decimal, hg, hd, hf⟩ := findSome?_descending hsorted hunits hfound
  obtain ⟨he, hr⟩ := nearestOnGrid?_some hd
  obtain ⟨exponent, rfl⟩ := Int.eq_ofNat_of_zero_le hg
  refine ⟨decimal.digits, exponent, ?_, hr⟩
  rw [shortest, if_neg hz]
  dsimp only
  rw [hf, Option.getD_some, ← he]

/-- What rounds to a whole value is positive and at most twice as large. -/
theorem of_roundsFrom {digits exponent : ℕ} (h : x.magnitude = n) (hn : 0 < n)
    (hr : x.roundsFrom exponent digits = true) :
    0 < digits ∧ digits * 10 ^ exponent ≤ 2 * n := by
  have hs := significand_pos h hn
  have hf := four_mul_significand h
  have hb : x.binaryFactor exponent = 2 ^ (x.exponent - 2).toNat := by simp [binaryFactor]
  have hd : x.decimalFactor exponent = 10 ^ exponent * 2 ^ (2 - x.exponent).toNat := by
    simp [decimalFactor, Nat.mul_comm]
  obtain ⟨hlow, hhigh⟩ := roundsFrom_bounds hr
  constructor
  · by_contra hz
    rw [Nat.eq_zero_of_not_pos hz, Nat.zero_mul] at hlow
    have hp : 0 < (4 * x.significand - 2) * x.binaryFactor exponent :=
      Nat.mul_pos (by omega) (x.binaryFactor_pos _)
    omega
  · have hp : 0 < 2 ^ (2 - x.exponent).toNat := Nat.pow_pos (by decide)
    refine Nat.le_of_mul_le_mul_right ?_ hp
    calc digits * 10 ^ exponent * 2 ^ (2 - x.exponent).toNat
        = digits * x.decimalFactor exponent := by rw [hd, Nat.mul_assoc]
      _ ≤ (4 * x.significand + 2) * x.binaryFactor exponent := hhigh
      _ ≤ 2 * (4 * x.significand) * 2 ^ (x.exponent - 2).toNat := by
        rw [hb]
        exact Nat.mul_le_mul_right _ (by omega)
      _ = 2 * n * 2 ^ (2 - x.exponent).toNat := by rw [Nat.mul_assoc, hf, Nat.mul_assoc]

end DeclarativeSql.Binary64
