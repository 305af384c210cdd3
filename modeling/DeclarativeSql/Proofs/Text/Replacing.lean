import Mathlib.Data.List.Infix

/-!
# Replacing a text

`replace old new s` puts `new` in the place of every `old` in `s`, from left to right. What has
been put in is not looked at again.
-/

namespace DeclarativeSql.Text

def replace (old new : List Char) : List Char → List Char
  | [] => []
  | c :: rest =>
    if old <+: c :: rest then new ++ replace old new (rest.drop (old.length - 1))
    else c :: replace old new rest
termination_by s => s.length
decreasing_by
  · simp only [List.length_drop, List.length_cons]
    omega
  · exact Nat.lt_succ_self _

variable {old new : List Char}

@[simp] theorem replace_nil : replace old new [] = [] := by
  rw [replace]

theorem replace_cons {c : Char} {rest : List Char} (h : ¬ old <+: c :: rest) :
    replace old new (c :: rest) = c :: replace old new rest := by
  rw [replace, if_neg h]

theorem replace_cons_of_ne {c mark : Char} (h : c ≠ mark) (rest : List Char) :
    replace (mark :: old) new (c :: rest) = c :: replace (mark :: old) new rest :=
  replace_cons fun hp => h (List.cons_prefix_cons.mp hp).1.symm

theorem replace_append (hn : old ≠ []) (rest : List Char) :
    replace old new (old ++ rest) = new ++ replace old new rest := by
  cases old with
  | nil => exact absurd rfl hn
  | cons c code =>
    have hp : c :: code <+: c :: (code ++ rest) := List.prefix_append (c :: code) rest
    rw [List.cons_append, replace, if_pos hp]
    simp

/-- A replacement of single characters acts on each by itself. -/
theorem replace_singleton (mark : Char) (s : List Char) :
    replace [mark] new s = s.flatMap fun c => if c = mark then new else [c] := by
  induction s with
  | nil => exact replace_nil
  | cons c rest ih =>
    by_cases hc : c = mark
    · subst hc
      have hr : replace [c] new (c :: rest) = new ++ replace [c] new rest :=
        replace_append (List.cons_ne_nil c []) rest
      rw [hr, ih]
      simp
    · rw [replace_cons_of_ne hc, ih]
      simp [hc]

/-- A character that is not put in stood there before. -/
theorem replace_eq_cons {c mark : Char} {s tail : List Char} (hc : c ≠ mark)
    (h : replace old [mark] s = c :: tail) :
    ∃ rest, s = c :: rest ∧ replace old [mark] rest = tail := by
  cases s with
  | nil => simp at h
  | cons d rest =>
    by_cases hp : old <+: d :: rest
    · rw [replace, if_pos hp] at h
      exact absurd (List.cons.inj h).1.symm hc
    · rw [replace_cons hp] at h
      obtain ⟨rfl, ht⟩ := List.cons.inj h
      exact ⟨rest, rfl, ht⟩

end DeclarativeSql.Text
