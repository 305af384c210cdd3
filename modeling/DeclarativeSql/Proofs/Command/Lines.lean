import DeclarativeSql.Command.Arguments

/-!
# Command lines of a task

The plain way to write a task down: the command, its file, and an option with its value for
everything else that is asked for. Such a line is read as the task when no operand and no value
looks like an option and no path is empty (`ofList_words`).
-/

namespace DeclarativeSql.Command

def Switch.words (switch : Switch) (value : Option String) : List String :=
  value.toList.flatMap fun value => ["--" ++ switch.long, value]

namespace Task

def words : Task → List String
  | .compose file schema params dialect isBound =>
    "compose" :: file :: (Switch.schema.words schema ++ (Switch.params.words params ++
      (Switch.dialect.words (dialect.map Dialect.name) ++ if isBound then ["--bind"] else [])))
  | .validate file => ["validate", file]
  | .sample file => ["sample", file]

structure IsPath (argument : String) : Prop where
  ne_empty : argument ≠ ""
  not_dashed : Level.isDashed argument = false

/-- No operand and no value looks like an option. -/
def IsPlain : Task → Prop
  | .compose file schema params _ _ =>
    IsPath file ∧ (∀ name ∈ schema, Level.isDashed name = false) ∧ ∀ path ∈ params, IsPath path
  | .validate file | .sample file => IsPath file

end Task

theorem Level.give_of_accepts {level : Level} {switch : Switch} (ht : switch.takesValue = true)
    (hl : level.switches.lookup switch = none) (ha : switch.accepts value = true) :
    level.give switch value =
      .ok { level with switches := level.switches ++ [(switch, value)], waiting := none } := by
  cases switch with
  | bind | help | version => cases ht
  | _ => simp only [give, hl, ha, Option.isSome_none, Bool.not_true, Bool.or_self]; rfl

section
variable {level : Level} (hw : level.waiting = none)
include hw

theorem readVerb_operand (ho : level.operands = []) (hf : Task.IsPath file)
    (rest : List String) :
    readVerb known false level (file :: rest) =
      readVerb known false { level with operands := [file] } rest := by
  have hn : file ≠ "--" := by
    rintro rfl
    cases hf.not_dashed
  simp only [readVerb, hw, hn, hf.not_dashed, Level.addOperand, hf.ne_empty, ho]
  rfl

theorem readVerb_option (hd : Level.isDashed argument = true) (hn : argument ≠ "--")
    (hk : level.addOption known argument = .ok next) (rest : List String) :
    readVerb known false level (argument :: rest) = readVerb known false next rest := by
  simp only [readVerb, hw, hn, hd, hk]
  rfl

end

theorem readVerb_value {level : Level} (hw : level.waiting = some switch)
    (hd : Level.isDashed value = false) (hg : level.give switch value = .ok next)
    (rest : List String) :
    readVerb known false level (value :: rest) = readVerb known false next rest := by
  simp only [readVerb, hw, hd, hg]
  rfl

theorem readVerb_words {level : Level} {switch : Switch} (ht : switch.takesValue = true)
    (hk : ∀ level : Level, level.addOption known ("--" ++ switch.long) =
      .ok { level with waiting := some switch })
    (hw : level.waiting = none) (hl : level.switches.lookup switch = none)
    (hv : ∀ word ∈ value, Level.isDashed word = false ∧ switch.accepts word = true)
    (rest : List String) :
    readVerb known false level (switch.words value ++ rest) =
      readVerb known false
        { level with switches := level.switches ++ value.toList.map fun word => (switch, word) }
        rest := by
  cases value with
  | none => simp [Switch.words]
  | some word =>
    obtain ⟨hd, ha⟩ := hv word rfl
    have hs : Level.isDashed ("--" ++ switch.long) = true := by cases switch <;> rfl
    have hn : "--" ++ switch.long ≠ "--" := by cases switch <;> decide
    have hg : Level.give { level with waiting := some switch } switch word = .ok _ :=
      Level.give_of_accepts ht hl ha
    simp only [Switch.words, Option.toList_some, List.flatMap_singleton, List.cons_append,
      List.nil_append]
    rw [readVerb_option hw hs hn (hk level), readVerb_value rfl hd hg, ← hw]
    rfl

theorem ofList_words (task : Task) (h : task.IsPlain) :
    Arguments.ofList task.words = .ok ⟨none, task⟩ := by
  cases task with
  | validate file =>
    show (readVerb _ false {} [file] >>= _) = _
    rw [readVerb_operand rfl rfl h]
    rfl
  | sample file =>
    show (readVerb _ false {} [file] >>= _) = _
    rw [readVerb_operand rfl rfl h]
    rfl
  | compose file schema params dialect isBound =>
    obtain ⟨hf, hs, hp⟩ := h
    have schemas : ∀ name ∈ schema,
        Level.isDashed name = false ∧ Switch.schema.accepts name = true :=
      fun name hn => ⟨hs name hn, rfl⟩
    have paths : ∀ path ∈ params,
        Level.isDashed path = false ∧ Switch.params.accepts path = true :=
      fun path hn => ⟨(hp path hn).not_dashed, decide_eq_true (hp path hn).ne_empty⟩
    have dialects : ∀ name ∈ dialect.map Dialect.name,
        Level.isDashed name = false ∧ Switch.dialect.accepts name = true := by
      intro name hn
      obtain ⟨dialect, -, rfl⟩ := Option.map_eq_some_iff.mp hn
      cases dialect <;> decide
    show (readVerb Verb.compose.switches false {} (file :: _) >>= _) = _
    -- From left to right; no option was given before, so each may be given once.
    rw [readVerb_operand rfl rfl hf,
      readVerb_words rfl (fun _ => rfl) rfl rfl schemas,
      readVerb_words rfl (fun _ => rfl) rfl (by cases schema <;> rfl) paths,
      readVerb_words rfl (fun _ => rfl) rfl (by cases schema <;> cases params <;> rfl) dialects]
    rcases dialect with _ | _ | _ | _ <;> cases schema <;> cases params <;> cases isBound <;> rfl

end DeclarativeSql.Command
