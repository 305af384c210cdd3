import DeclarativeSql.Text.Basic

/-!
# Splitting and joining

Joining the pieces of a text gives the text back, and a text joined from pieces without the
separator splits into them. The last piece can be cut off in one way only.
-/

namespace DeclarativeSql.Text

theorem split_eq_splitOn (separator : Char) (s : List Char) :
    split separator s = s.splitOn separator := by
  induction s with
  | nil => simp [split]
  | cons c rest ih =>
    rw [List.splitOn_cons_eq_if_modifyHead]
    by_cases hc : c = separator
    · simp [split, hc, ih]
    · cases hs : rest.splitOn separator with
      | nil => exact absurd hs (List.splitOn_ne_nil _ _)
      | cons piece pieces => simp [split, hc, ih, hs]

theorem join_eq_intercalate (separator : Char) (pieces : List (List Char)) :
    join separator pieces = [separator].intercalate pieces := by
  induction pieces with
  | nil => simp [join]
  | cons piece rest ih =>
    cases rest with
    | nil => simp [join]
    | cons next rest => simp [join, ih, List.intercalate_cons_cons]

theorem split_ne_nil (separator : Char) (s : List Char) : split separator s ≠ [] := by
  rw [split_eq_splitOn]
  exact List.splitOn_ne_nil separator s

@[simp] theorem join_split (separator : Char) (s : List Char) :
    join separator (split separator s) = s := by
  simp [join_eq_intercalate, split_eq_splitOn, List.intercalate_splitOn]

theorem split_join {separator : Char} {pieces : List (List Char)}
    (h : ∀ piece ∈ pieces, separator ∉ piece) (hn : pieces ≠ []) :
    split separator (join separator pieces) = pieces := by
  rw [join_eq_intercalate, split_eq_splitOn]
  exact List.splitOn_intercalate separator h hn

theorem split_of_notMem {separator : Char} {s : List Char} (h : separator ∉ s) :
    split separator s = [s] := by
  have hp : ∀ piece ∈ [s], separator ∉ piece := List.forall_mem_singleton.mpr h
  exact split_join hp (List.cons_ne_nil s [])

theorem mem_join {separator c : Char} {pieces : List (List Char)}
    (h : c ∈ join separator pieces) : c = separator ∨ ∃ piece ∈ pieces, c ∈ piece := by
  induction pieces with
  | nil => cases h
  | cons piece rest ih =>
    cases rest with
    | nil => exact .inr ⟨piece, List.mem_cons_self, h⟩
    | cons next rest =>
      rw [join, List.mem_append, List.mem_cons] at h
      · rcases h with h | h | h
        · exact .inr ⟨piece, List.mem_cons_self, h⟩
        · exact .inl h
        · exact (ih h).imp_right fun ⟨piece, hp, hc⟩ => ⟨piece, List.mem_cons_of_mem _ hp, hc⟩
      · exact List.cons_ne_nil next rest

theorem notMem_of_mem_split {separator : Char} {s piece : List Char}
    (h : piece ∈ split separator s) : separator ∉ piece := by
  induction s generalizing piece with
  | nil =>
    rw [split, List.mem_singleton] at h
    simp [h]
  | cons c rest ih =>
    rw [split] at h
    by_cases hc : c = separator
    · rw [if_pos hc] at h
      rcases List.mem_cons.mp h with rfl | h
      · exact List.not_mem_nil
      · exact ih h
    · rw [if_neg hc] at h
      cases hs : split separator rest with
      | nil => exact absurd hs (split_ne_nil separator rest)
      | cons first pieces =>
        rw [hs] at h
        rw [hs, List.forall_mem_cons] at ih
        rcases List.mem_cons.mp h with rfl | h
        · simp [Ne.symm hc, ih.1]
        · exact ih.2 _ h

theorem split_append_cons (separator : Char) (s rest : List Char) :
    split separator (s ++ separator :: rest) = split separator s ++ split separator rest := by
  simp [split_eq_splitOn, List.splitOn_append_cons_self]

theorem join_append {separator : Char} {first second : List (List Char)} (hf : first ≠ [])
    (hs : second ≠ []) :
    join separator (first ++ second) =
      join separator first ++ separator :: join separator second := by
  induction first with
  | nil => exact absurd rfl hf
  | cons piece rest ih =>
    cases rest with
    | nil => simp [join]
    | cons next rest => simpa [join] using ih (List.cons_ne_nil next rest)

/-- What stands behind the last separator of a text is determined by the text. -/
theorem append_cons_inj {separator : Char} {first second first' second' : List Char}
    (h : separator ∉ second) (h' : separator ∉ second') :
    first ++ separator :: second = first' ++ separator :: second' ↔
      first = first' ∧ second = second' := by
  constructor
  · intro he
    -- of two separators at different places the earlier one is followed by the other
    rcases List.append_eq_append_iff.mp he with ⟨more, rfl, hm⟩ | ⟨more, rfl, hm⟩
    · cases more with
      | nil => simpa using hm
      | cons c more =>
        obtain ⟨rfl, rfl⟩ := List.cons.inj hm
        simp at h
    · cases more with
      | nil => simpa [eq_comm] using hm
      | cons c more =>
        obtain ⟨rfl, rfl⟩ := List.cons.inj hm
        simp at h'
  · rintro ⟨rfl, rfl⟩
    rfl

end DeclarativeSql.Text
