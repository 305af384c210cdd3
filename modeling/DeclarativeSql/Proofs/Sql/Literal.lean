import DeclarativeSql.Sql.Dialect

/-!
# Reading a string literal

A literal starts with a quote; a quote written twice stands for one, and a quote alone ends the
literal. What `Dialect.quoteString` writes reads back as the value, unless a quote follows it.
-/

namespace DeclarativeSql

namespace Sql

/-- The value of a literal whose opening quote has been read, and what follows its closing
quote. -/
def scanQuoted? : List Char → Option (List Char × List Char)
  | '\'' :: '\'' :: rest => (scanQuoted? rest).map fun (value, rest) => ('\'' :: value, rest)
  | '\'' :: rest => some ([], rest)
  | c :: rest => (scanQuoted? rest).map fun (value, rest) => (c :: value, rest)
  | [] => none

/-- The value of the literal at the front of a text, and what follows it. -/
def scanLiteral? : List Char → Option (List Char × List Char)
  | '\'' :: rest => scanQuoted? rest
  | _ => none

-- ---------------------------------------------------------------------------
-- Texts between marks
-- ---------------------------------------------------------------------------

/-- The value of a text between marks whose opening mark has been read, and what follows its
closing mark; a mark written twice stands for one. -/
def scanEnclosed? (mark : Char) : List Char → Option (List Char × List Char)
  | [] => none
  | [c] => if c = mark then some ([], []) else none
  | c :: d :: rest =>
    if c ≠ mark then
      (scanEnclosed? mark (d :: rest)).map fun (value, rest) => (c :: value, rest)
    else if d = mark then
      (scanEnclosed? mark rest).map fun (value, rest) => (mark :: value, rest)
    else some ([], d :: rest)

theorem scanEnclosed?_close {mark : Char} {rest : List Char} (h : rest.head? ≠ some mark) :
    scanEnclosed? mark (mark :: rest) = some ([], rest) := by
  cases rest with
  | nil => simp [scanEnclosed?]
  | cons c rest =>
    have hc : c ≠ mark := fun hc => h (congrArg some hc)
    simp [scanEnclosed?, hc]

theorem scanEnclosed?_mark (mark : Char) (rest : List Char) :
    scanEnclosed? mark (mark :: mark :: rest) =
      (scanEnclosed? mark rest).map fun (value, rest) => (mark :: value, rest) := by
  simp [scanEnclosed?]

theorem scanEnclosed?_char {c mark : Char} (h : c ≠ mark) (rest : List Char) :
    scanEnclosed? mark (c :: rest) =
      (scanEnclosed? mark rest).map fun (value, rest) => (c :: value, rest) := by
  cases rest with
  | nil => simp [scanEnclosed?, h]
  | cons d rest => rw [scanEnclosed?, if_pos h]

theorem scanEnclosed?_double {mark : Char} (value : List Char) {rest : List Char}
    (h : rest.head? ≠ some mark) :
    scanEnclosed? mark (double mark value ++ mark :: rest) = some (value, rest) := by
  induction value with
  | nil => exact scanEnclosed?_close h
  | cons c value ih =>
    rw [double] at ih ⊢
    by_cases hc : c = mark
    · subst hc
      simp [scanEnclosed?_mark, ih]
    · simp [hc, scanEnclosed?_char, ih]

theorem scanQuoted?_eq (s : List Char) : scanQuoted? s = scanEnclosed? '\'' s := by
  fun_induction scanQuoted? s with
  | case1 rest ih => rw [scanEnclosed?_mark, ih]
  | case2 rest hr =>
    refine (scanEnclosed?_close ?_).symm
    rw [Ne, List.head?_eq_some_iff]
    rintro ⟨tail, rfl⟩
    exact hr tail rfl
  | case3 c rest _ hc ih => rw [scanEnclosed?_char hc, ih]
  | case4 => rfl

end Sql

theorem Dialect.scanLiteral?_quoteString {dialect : Dialect} (hd : dialect ≠ .legacy)
    (value : String) {rest : List Char} (h : rest.head? ≠ some '\'') :
    Sql.scanLiteral? ((dialect.quoteString value).toList ++ rest) = some (value.toList, rest) := by
  have hq : (dialect.quoteString value).toList =
      Sql.enclose '\'' (Sql.double '\'' value.toList) := by
    cases dialect with
    | legacy => exact absurd rfl hd
    | postgres => simp [Dialect.quoteString]
    | redshift => simp [Dialect.quoteString]
  rw [hq, Sql.enclose, List.cons_append, List.cons_append, List.append_assoc]
  exact (Sql.scanQuoted?_eq _).trans (Sql.scanEnclosed?_double value.toList h)

-- the legacy dialect writes a quote as it is, which ends the literal early
example :
    Sql.scanLiteral? (Dialect.legacy.quoteString "it's").toList =
      some (['i', 't'], ['s', '\'']) := by
  decide

end DeclarativeSql
