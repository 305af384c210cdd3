import Mathlib.Data.List.Forall2
import DeclarativeSql.Json.Reader

/-!
# Written strings read back

A character is written as one piece: as it is, as a letter behind a backslash, or as a unit
below U+0020. The reader finds these pieces in their order, and none of them is a surrogate.
-/

namespace DeclarativeSql.Json

/-- A piece that stands for a character. -/
def Piece.Shows (piece : Piece) (c : Char) : Prop :=
  piece = .char c ∨ (piece = .unit c.toNat ∧ c.toNat < 0x20)

theorem hexValue?_hexDigit : ∀ value < 16, hexValue? (hexDigit value) = some value := by
  decide

theorem hexNumber?_byte {value : Nat} (h : value < 256) :
    hexNumber? ['0', '0', hexDigit (value / 16), hexDigit (value % 16)] = some value := by
  have hz : hexValue? '0' = some 0 := rfl
  have hh := hexValue?_hexDigit (value / 16) (by omega)
  have hl := hexValue?_hexDigit (value % 16) (by omega)
  simp only [hexNumber?, List.foldlM_cons, List.foldlM_nil, hz, hh, hl, Option.map_some,
    Option.bind_eq_bind, Option.bind_some, Option.pure_def, Option.some.injEq]
  omega

/-- A character that is not escaped is a piece by itself. -/
theorem stringBody?_plain {c : Char} (hq : c ≠ '"') (hb : c ≠ '\\') (hl : ¬ c.toNat < 0x20)
    (rest : List Char) :
    stringBody? (c :: rest) =
      (stringBody? rest).map fun (pieces, rest) => (.char c :: pieces, rest) := by
  rw [stringBody?]
  · rw [if_neg hl]
  · exact fun h => hq h
  · exact fun _ _ _ _ _ h => absurd h hb
  · exact fun _ _ h => absurd h hb

theorem stringBody?_letter {letter c : Char} (hu : letter ≠ 'u') (hc : unescape? letter = some c)
    (rest : List Char) :
    stringBody? ('\\' :: letter :: rest) =
      (stringBody? rest).map fun (pieces, rest) => (.char c :: pieces, rest) := by
  rw [stringBody?]
  · simp only [hc, Option.bind_eq_bind, Option.bind_some]
    cases stringBody? rest <;> rfl
  · exact fun _ _ _ _ _ h _ => hu h

theorem stringBody?_unit {value : Nat} (h : value < 256) (rest : List Char) :
    stringBody? (['\\', 'u', '0', '0', hexDigit (value / 16), hexDigit (value % 16)] ++ rest) =
      (stringBody? rest).map fun (pieces, rest) => (.unit value :: pieces, rest) := by
  simp only [List.cons_append, List.nil_append, stringBody?, hexNumber?_byte h,
    Option.bind_eq_bind, Option.bind_some]
  cases stringBody? rest <;> rfl

theorem stringBody?_escapeChar (c : Char) (rest : List Char) :
    ∃ piece : Piece, piece.Shows c ∧ stringBody? (escapeChar c ++ rest) =
      (stringBody? rest).map fun (pieces, rest) => (piece :: pieces, rest) := by
  unfold escapeChar
  split_ifs with hq hb hn hr ht hbs hf hl
  · exact ⟨.char c, .inl rfl, stringBody?_letter (by decide) (by rw [hq]; rfl) rest⟩
  · exact ⟨.char c, .inl rfl, stringBody?_letter (by decide) (by rw [hb]; rfl) rest⟩
  · exact ⟨.char c, .inl rfl, stringBody?_letter (by decide) (by rw [hn]; rfl) rest⟩
  · exact ⟨.char c, .inl rfl, stringBody?_letter (by decide) (by rw [hr]; rfl) rest⟩
  · exact ⟨.char c, .inl rfl, stringBody?_letter (by decide) (by rw [ht]; rfl) rest⟩
  · exact ⟨.char c, .inl rfl, stringBody?_letter (by decide) (by rw [hbs]; rfl) rest⟩
  · exact ⟨.char c, .inl rfl, stringBody?_letter (by decide) (by rw [hf]; rfl) rest⟩
  · exact ⟨.unit c.toNat, .inr ⟨rfl, hl⟩, stringBody?_unit (by omega) rest⟩
  · exact ⟨.char c, .inl rfl, stringBody?_plain hq hb hl rest⟩

theorem stringBody?_written (s rest : List Char) :
    ∃ pieces, List.Forall₂ Piece.Shows pieces s ∧
      stringBody? (s.flatMap escapeChar ++ '"' :: rest) = some (pieces, rest) := by
  induction s with
  | nil => exact ⟨[], .nil, rfl⟩
  | cons c s ih =>
    obtain ⟨pieces, hs, hr⟩ := ih
    obtain ⟨piece, hc, he⟩ := stringBody?_escapeChar c (s.flatMap escapeChar ++ '"' :: rest)
    refine ⟨piece :: pieces, .cons hc hs, ?_⟩
    rw [List.flatMap_cons, List.append_assoc, he, hr]
    rfl

theorem joinPieces?_unit {value : Nat} (h : value < 0x20) (rest : List Piece) :
    joinPieces? (.unit value :: rest) = (joinPieces? rest).map (Char.ofNat value :: ·) := by
  have hh : isHighSurrogate value = false := by simp [isHighSurrogate]; omega
  have hl : isLowSurrogate value = false := by simp [isLowSurrogate]; omega
  cases rest with
  | nil => simp [joinPieces?, hh, hl]
  | cons piece rest => cases piece <;> simp [joinPieces?, hh, hl]

theorem joinPieces?_shown {pieces : List Piece} {s : List Char}
    (h : List.Forall₂ Piece.Shows pieces s) : joinPieces? pieces = some s := by
  induction h with
  | nil => rfl
  | cons hc _ ih =>
    rcases hc with rfl | ⟨rfl, hl⟩
    · rw [joinPieces?, ih]
      rfl
    · rw [joinPieces?_unit hl, ih, Char.ofNat_toNat]
      rfl

theorem stringBody?_quote (s : String) (rest : List Char) :
    ∃ pieces, stringBody? (s.toList.flatMap escapeChar ++ '"' :: rest) = some (pieces, rest) ∧
      stringOfPieces? pieces = some s := by
  obtain ⟨pieces, hs, hr⟩ := stringBody?_written s.toList rest
  refine ⟨pieces, hr, ?_⟩
  rw [stringOfPieces?, joinPieces?_shown hs, Option.map_some, String.ofList_toList]

end DeclarativeSql.Json
