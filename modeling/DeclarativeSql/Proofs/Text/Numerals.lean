import Mathlib.Logic.Function.Basic

/-!
# Decimal texts

A number is written with digits alone, a negative one behind a minus, and different numbers are
written differently.
-/

namespace DeclarativeSql.Text

theorem notMem_toDigits {c : Char} (h : c.isDigit = false) (n : Nat) : c ∉ Nat.toDigits 10 n := by
  intro hm
  rw [Nat.isDigit_of_mem_toDigits (by omega) (by omega) hm] at h
  cases h

theorem toDigits_injective : Function.Injective (Nat.toDigits 10) :=
  Function.LeftInverse.injective fun _ => Nat.ofDigitChars_ten_toDigits

theorem toList_natText (n : Nat) : (toString n).toList = Nat.toDigits 10 n :=
  Nat.toList_repr

theorem toList_intText (n : Int) :
    (toString n).toList =
      if 0 ≤ n then Nat.toDigits 10 n.natAbs else '-' :: Nat.toDigits 10 n.natAbs := by
  cases n with
  | ofNat k => exact Nat.toList_repr
  | negSucc k =>
    have ht : toString (Int.negSucc k) = "-" ++ (k + 1).repr := rfl
    rw [ht, String.toList_append, Nat.toList_repr]
    rfl

theorem intText_injective : Function.Injective fun n : Int => toString n := by
  intro n m h
  have ht := congrArg String.toList h
  simp only [toList_intText] at ht
  -- a minus is no digit, so the signs agree
  have hminus (k : Nat) (rest : List Char) : Nat.toDigits 10 k ≠ '-' :: rest := by
    intro he
    exact notMem_toDigits (by decide) k (he ▸ List.mem_cons_self)
  by_cases hn : 0 ≤ n <;> by_cases hm : 0 ≤ m <;> simp only [hn, hm, if_true, if_false] at ht
  · have := toDigits_injective ht
    omega
  · exact absurd ht (hminus _ _)
  · exact absurd ht.symm (hminus _ _)
  · have := toDigits_injective (List.cons.inj ht).2
    omega

end DeclarativeSql.Text
