import DeclarativeSql.Catalog.Path
import DeclarativeSql.Proofs.Text.Pieces
import DeclarativeSql.Proofs.Text.Replacing

/-!
# Reading a path back

A written component holds no separator and reads back as it was, so a path has the components
it was made from. Hence a path starts like the paths under some components only when its own
components start with them.

`path_encoding_is_reversible`: paths and lists of components determine each other, where every
`-` of a path begins an escape. Escaping is two replacements in turn, and so is reading back.
-/

namespace DeclarativeSql.Path

-- ---------------------------------------------------------------------------
-- Written components
-- ---------------------------------------------------------------------------

theorem escapeChar_of_ne {c : Char} (hd : c ≠ '-') (hs : c ≠ separator) : escapeChar c = [c] := by
  simp [escapeChar, hd, hs]

theorem unescape_cons {c : Char} (h : c ≠ '-') (rest : List Char) :
    unescape (c :: rest) = c :: unescape rest := by
  rw [unescape]
  · exact fun _ hc _ => h hc
  · exact fun _ hc _ => h hc

theorem unescape_escape (s : List Char) : unescape (escape s) = s := by
  induction s with
  | nil => rfl
  | cons c rest ih =>
    rw [escape] at ih ⊢
    rw [List.flatMap_cons]
    by_cases hd : c = '-'
    · subst hd
      simp [escapeChar, unescape, ih]
    · by_cases hs : c = separator
      · subst hs
        simp [escapeChar, separator, unescape]
        exact ih
      · rw [escapeChar_of_ne hd hs, List.singleton_append, unescape_cons hd, ih]

theorem separator_notMem_escape (s : List Char) : separator ∉ escape s := by
  intro h
  obtain ⟨c, -, hc⟩ := List.mem_flatMap.mp h
  by_cases hd : c = '-'
  · simp [escapeChar, hd, separator] at hc
  · by_cases hs : c = separator
    · simp [escapeChar, hs, separator] at hc
    · rw [escapeChar_of_ne hd hs, List.mem_singleton] at hc
      exact hs hc.symm

-- ---------------------------------------------------------------------------
-- Paths
-- ---------------------------------------------------------------------------

theorem components_ofComponents {names : List String} (h : names ≠ []) :
    components (ofComponents names) = names := by
  have hs : Text.split separator (ofComponents names).toList =
      names.map fun name => escape name.toList := by
    rw [ofComponents, String.toList_ofList]
    refine Text.split_join ?_ (by simpa using h)
    intro piece hp
    obtain ⟨name, -, rfl⟩ := List.mem_map.mp hp
    exact separator_notMem_escape _
  simp [components, hs, Function.comp_def, unescape_escape]

theorem ofComponents_inj {names others : List String} (hn : names ≠ []) (ho : others ≠ []) :
    ofComponents names = ofComponents others ↔ names = others := by
  constructor
  · intro h
    rw [← components_ofComponents hn, h, components_ofComponents ho]
  · exact congrArg ofComponents

theorem components_append (start rest : String) :
    components (start.push separator ++ rest) = components start ++ components rest := by
  simp [components, Text.split_append_cons]

theorem ofComponents_append {names more : List String} (hn : names ≠ []) (hm : more ≠ []) :
    ofComponents (names ++ more) = (ofComponents names).push separator ++ ofComponents more := by
  apply String.toList_injective
  simp [ofComponents, Text.join_append, hn, hm]

/-- The paths that go on behind some components. -/
theorem startsWith_iff {names others : List String} (hn : names ≠ []) (ho : others ≠ []) :
    (∃ rest, ofComponents others = (ofComponents names).push separator ++ rest) ↔
      ∃ more, more ≠ [] ∧ others = names ++ more := by
  constructor
  · rintro ⟨rest, h⟩
    refine ⟨components rest, by simp [components, Text.split_ne_nil], ?_⟩
    rw [← components_ofComponents ho, h, components_append, components_ofComponents hn]
  · rintro ⟨more, hm, rfl⟩
    exact ⟨_, ofComponents_append hn hm⟩

-- ---------------------------------------------------------------------------
-- Escapes as replacements
-- ---------------------------------------------------------------------------

/-- How `-` is written. -/
def dashCode : List Char := ['-', '2', 'D']

/-- How the separator is written. -/
def separatorCode : List Char := ['-', '5', 'F']

/-- The code of a dash holds no separator, so the second replacement leaves it alone. -/
theorem escape_eq_replace (s : List Char) :
    escape s = Text.replace [separator] separatorCode (Text.replace ['-'] dashCode s) := by
  rw [Text.replace_singleton, Text.replace_singleton, List.flatMap_assoc, escape]
  refine List.flatMap_congr fun c _ => ?_
  by_cases hd : c = '-'
  · subst hd
    rfl
  · by_cases hs : c = separator
    · subst hs
      rfl
    · simp [escapeChar, hd, hs]

/-- The first replacement makes no code of a dash: it puts in separators only. -/
theorem dashCode_of_replace {rest : List Char}
    (h : dashCode <+: '-' :: Text.replace separatorCode [separator] rest) :
    ∃ tail, rest = '2' :: 'D' :: tail := by
  obtain ⟨tail, ht⟩ := (List.cons_prefix_cons.mp h).2
  obtain ⟨rest, rfl, hr⟩ := Text.replace_eq_cons (by decide) ht.symm
  obtain ⟨rest, rfl, -⟩ := Text.replace_eq_cons (by decide) hr
  exact ⟨rest, rfl⟩

theorem unescape_eq_replace (s : List Char) :
    unescape s = Text.replace dashCode ['-'] (Text.replace separatorCode [separator] s) := by
  have dash {c : Char} (rest : List Char) (hc : c ≠ '-') : Text.replace dashCode ['-'] (c :: rest) =
      c :: Text.replace dashCode ['-'] rest := Text.replace_cons_of_ne hc rest
  have mark {c : Char} (rest : List Char) (hc : c ≠ '-') :
      Text.replace separatorCode [separator] (c :: rest) =
        c :: Text.replace separatorCode [separator] rest := Text.replace_cons_of_ne hc rest
  fun_induction unescape s with
  | case1 => simp
  | case2 rest ih =>
    have hs : ¬ separatorCode <+: '-' :: '2' :: 'D' :: rest := by
      simp [separatorCode, List.cons_prefix_cons]
    have hd (tail : List Char) : Text.replace dashCode ['-'] ('-' :: '2' :: 'D' :: tail) =
        '-' :: Text.replace dashCode ['-'] tail :=
      Text.replace_append (List.cons_ne_nil _ _) tail
    rw [Text.replace_cons hs, mark _ (by decide), mark _ (by decide), hd, ih]
  | case3 rest ih =>
    have hs : Text.replace separatorCode [separator] ('-' :: '5' :: 'F' :: rest) =
        separator :: Text.replace separatorCode [separator] rest :=
      Text.replace_append (List.cons_ne_nil _ _) rest
    rw [hs, dash _ (by decide), ih]
  | case4 c rest hd hs ih =>
    by_cases hc : c = '-'
    · subst hc
      have hp : ¬ separatorCode <+: '-' :: rest := by
        rintro ⟨tail, ht⟩
        exact hs tail rfl (List.cons.inj ht).2.symm
      have hp' : ¬ dashCode <+: '-' :: Text.replace separatorCode [separator] rest := by
        intro h
        obtain ⟨tail, rfl⟩ := dashCode_of_replace h
        exact hd tail rfl rfl
      rw [Text.replace_cons hp, Text.replace_cons hp', ih]
    · rw [mark _ hc, dash _ hc, ih]

-- ---------------------------------------------------------------------------
-- Texts in which every dash begins an escape
-- ---------------------------------------------------------------------------

/-- Behind every `-` stands the rest of a code. -/
def IsWritten (s : List Char) : Prop :=
  ∀ rest, '-' :: rest <:+ s → ['2', 'D'] <+: rest ∨ ['5', 'F'] <+: rest

@[simp] theorem isWritten_nil : IsWritten [] := by
  simp [IsWritten]

theorem isWritten_cons {c : Char} {rest : List Char} :
    IsWritten (c :: rest) ↔
      (c = '-' → ['2', 'D'] <+: rest ∨ ['5', 'F'] <+: rest) ∧ IsWritten rest := by
  simp only [IsWritten, List.suffix_cons_iff, List.cons.injEq, or_imp, forall_and]
  refine and_congr_left fun _ => ⟨fun h hc => h rest ⟨hc.symm, rfl⟩, ?_⟩
  rintro h _ ⟨hc, rfl⟩
  exact h hc.symm

theorem isWritten_cons_of_ne {c : Char} (h : c ≠ '-') {rest : List Char} :
    IsWritten (c :: rest) ↔ IsWritten rest := by
  simp [isWritten_cons, h]

theorem isWritten_escape (s : List Char) : IsWritten (escape s) := by
  induction s with
  | nil => exact isWritten_nil
  | cons c rest ih =>
    rw [escape] at ih ⊢
    rw [List.flatMap_cons]
    by_cases hd : c = '-'
    · simp [escapeChar, hd, isWritten_cons, ih]
    · by_cases hs : c = separator
      · simp [escapeChar, hs, separator, isWritten_cons]
        exact ih
      · rw [escapeChar_of_ne hd hs, List.singleton_append, isWritten_cons_of_ne hd]
        exact ih

theorem escape_cons (c : Char) (rest : List Char) :
    escape (c :: rest) = escapeChar c ++ escape rest :=
  List.flatMap_cons

theorem escape_unescape {s : List Char} (h : IsWritten s) (hs : separator ∉ s) :
    escape (unescape s) = s := by
  fun_induction unescape s with
  | case1 => rfl
  | case2 rest ih =>
    have hr : IsWritten rest := by simpa [isWritten_cons] using h
    have hn : separator ∉ rest := by simpa [separator] using hs
    rw [escape_cons, ih hr hn]
    rfl
  | case3 rest ih =>
    have hr : IsWritten rest := by simpa [isWritten_cons] using h
    have hn : separator ∉ rest := by simpa [separator] using hs
    rw [escape_cons, ih hr hn]
    rfl
  | case4 c rest hd hf ih =>
    rw [isWritten_cons] at h
    rw [List.mem_cons, not_or] at hs
    have hc : c ≠ '-' := by
      intro hc
      rcases h.1 hc with ⟨tail, rfl⟩ | ⟨tail, rfl⟩
      · exact hd tail hc rfl
      · exact hf tail hc rfl
    rw [escape_cons, escapeChar_of_ne hc (Ne.symm hs.1), ih h.2 hs.2, List.singleton_append]

theorem prefix_append_separator {code s : List Char} (h : separator ∉ code) (rest : List Char) :
    code <+: s ++ separator :: rest ↔ code <+: s := by
  induction code generalizing s with
  | nil => simp
  | cons c code ih =>
    rw [List.mem_cons, not_or] at h
    cases s with
    | nil => simp [List.cons_prefix_cons, Ne.symm h.1]
    | cons d s => simp [List.cons_prefix_cons, ih h.2]

theorem isWritten_append_separator {s rest : List Char} :
    IsWritten (s ++ separator :: rest) ↔ IsWritten s ∧ IsWritten rest := by
  induction s with
  | nil => simp [isWritten_cons_of_ne (show separator ≠ '-' by decide)]
  | cons c s ih =>
    rw [List.cons_append, isWritten_cons, isWritten_cons, ih, and_assoc,
      prefix_append_separator (by decide), prefix_append_separator (by decide)]

theorem isWritten_join {pieces : List (List Char)} :
    IsWritten (Text.join separator pieces) ↔ ∀ piece ∈ pieces, IsWritten piece := by
  induction pieces with
  | nil => simp [Text.join]
  | cons piece rest ih =>
    cases rest with
    | nil => simp [Text.join]
    | cons next rest =>
      rw [Text.join, isWritten_append_separator, ih, ← List.forall_mem_cons]
      exact List.cons_ne_nil next rest

-- ---------------------------------------------------------------------------
-- Paths and components
-- ---------------------------------------------------------------------------

theorem ofComponents_components (path : String) :
    ofComponents (components path) = path ↔ IsWritten path.toList := by
  have ho : ofComponents (components path) = path ↔
      Text.join separator ((Text.split separator path.toList).map fun piece =>
        escape (unescape piece)) = path.toList := by
    simp [← String.toList_inj, ofComponents, components, Function.comp_def]
  rw [ho]
  constructor
  · intro h
    rw [← h, isWritten_join]
    simp [isWritten_escape]
  · intro h
    rw [← Text.join_split separator path.toList, isWritten_join] at h
    have he : ∀ piece ∈ Text.split separator path.toList, escape (unescape piece) = piece :=
      fun piece hp => escape_unescape (h piece hp) (Text.notMem_of_mem_split hp)
    rw [List.map_congr_left he, List.map_id', Text.join_split]

theorem path_encoding_is_reversible :
    (∀ names, names ≠ [] → components (ofComponents names) = names) ∧
      (∀ names others, names ≠ [] → others ≠ [] →
        (ofComponents names = ofComponents others ↔ names = others)) ∧
      (∀ path, ofComponents (components path) = path ↔ IsWritten path.toList) ∧
      (∀ s, escape s =
        Text.replace ['_'] ['-', '5', 'F'] (Text.replace ['-'] ['-', '2', 'D'] s)) ∧
      ∀ s, unescape s =
        Text.replace ['-', '2', 'D'] ['-'] (Text.replace ['-', '5', 'F'] ['_'] s) :=
  ⟨fun _ hn => components_ofComponents hn, fun _ _ hn ho => ofComponents_inj hn ho,
    ofComponents_components, escape_eq_replace, unescape_eq_replace⟩

theorem path_encoding_is_reversible_of_codes :
    ["-5F", "--__", ""] ≠ [] ∧ ["-2D5F", "--__", ""] ≠ [] ∧
      components (ofComponents ["-5F", "--__", ""]) = ["-5F", "--__", ""] ∧
      ofComponents ["-5F", "--__", ""] ≠ ofComponents ["-2D5F", "--__", ""] := by
  have hn : ["-5F", "--__", ""] ≠ [] := List.cons_ne_nil _ _
  have ho : ["-2D5F", "--__", ""] ≠ [] := List.cons_ne_nil _ _
  obtain ⟨back, inj, -⟩ := path_encoding_is_reversible
  refine ⟨hn, ho, back _ hn, ?_⟩
  rw [Ne, inj _ _ hn ho]
  decide

end DeclarativeSql.Path
