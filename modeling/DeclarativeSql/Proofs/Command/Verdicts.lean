import DeclarativeSql.Command.Run
import DeclarativeSql.Proofs.Command.Lines
import DeclarativeSql.Proofs.Statement.Acceptance
import DeclarativeSql.Proofs.Statement.Binding

/-!
# The verdicts of the commands

Checking a file, sampling it and composing it for a schema all start by loading it, and a query
that was loaded composes, or panics for want of a date. `verdicts_agree`: where the bounds of a
range have dates in the zone of the settings, the three runs end with the same code and the same
lines of error; where they have not, only the check succeeds. In any case only a run that succeeds
writes to its output.
-/

namespace DeclarativeSql

/-- A second step that succeeds whenever it is taken brings no fault. -/
theorem fault?_bind_of_ok {x : Except ε α} {f : α → Except ε β}
    (h : ∀ a, x = .ok a → ∃ b, f a = .ok b) : fault? (x >>= f) = fault? x := by
  cases x with
  | error e => rfl
  | ok a =>
    obtain ⟨b, hb⟩ := h a rfl
    exact congrArg fault? hb

theorem Overrides.problems_none (limit : Nat) : ({} : Overrides).problems limit = [] :=
  (Overrides.problems_eq_nil limit {}).mpr ⟨Nat.zero_le _, List.forall_mem_nil _⟩

/-- The bounds of a range have dates in the zone. Raw queries and numbers of days need none. -/
def Query.HasDates (zone : Zone) (query : Query) : Prop :=
  ∀ composition, query.source = .composition composition → composition.parameters.HasDates zone

section
variable {options : StatementOptions} {query : Query} (hn : schema ≠ "")
  (h : query.source.problems options.maxDepth = [])

include hn h

theorem Query.tokens_hasDates (hd : query.HasDates options.zone) :
    ∃ statement, query.tokens options (some schema) {} = .ok statement := by
  unfold Query.tokens
  cases hs : query.source with
  | raw sql => exact ⟨_, rfl⟩
  | composition composition =>
    rw [hs, Source.problems] at h
    obtain ⟨statement, hc⟩ :=
      Composition.compile_accepted h (Overrides.problems_none _) (hd composition hs)
    refine ⟨statement, ?_⟩
    dsimp only
    rw [Composition.compose_ok.mpr
      ⟨composition.schemaFor?_some hn, Composition.columns_nonempty h, hc⟩]
    rfl

theorem Query.tokens_of_not_hasDates (hd : ¬ query.HasDates options.zone) :
    query.tokens options (some schema) {} = .error .panicked := by
  simp only [HasDates, not_forall] at hd
  obtain ⟨composition, hs, hd⟩ := hd
  rw [hs, Source.problems] at h
  have hd : ¬ (({} : Overrides).apply composition.parameters).HasDates options.zone := hd
  obtain ⟨columns, hc⟩ := fault?_eq_none.mp (Composition.selectList_accepted h)
  rw [Query.tokens, hs]
  dsimp only
  rw [Composition.compose_of_compile_error (composition.schemaFor?_some hn)
    (Composition.columns_nonempty h) (Composition.compile_panics hc hd)]
  rfl

end

namespace Command

theorem loadQuery_accepted {files : Files} (h : loadQuery files file limit = .ok query) :
    query.source.problems limit = [] := by
  obtain ⟨text, -, hq⟩ := bind_ok.mp h
  exact Query.ofText_accepted (returning_ok.mp hq)

namespace Task

/-- The task loads a query and writes its statement, for a schema of its own and in one of the
forms of a statement. -/
def Composes (files : Files) (options : StatementOptions) (file : String) (task : Task) : Prop :=
  ∃ (schema : String) (dialect : Dialect) (form : Fragment → String), schema ≠ "" ∧
    task.run files options = loadQuery files file options.maxDepth >>= fun query =>
      statement ((query.tokens { options with dialect := dialect } (some schema) {}).map form)

section
variable (files : Files) (options : StatementOptions) (file : String)

theorem sample_composes : (sample file).Composes files options file := by
  refine ⟨sampleSchema, options.dialect, Fragment.text options.dialect, by decide, ?_⟩
  simp only [run, Query.sample, Query.compose_eq_text]

theorem compose_composes {schema : String} (hn : schema ≠ "") (dialect : Option Dialect)
    (isBound : Bool) :
    (compose file (some schema) none dialect isBound).Composes files options file := by
  let named := dialect.getD options.dialect
  cases isBound with
  | true =>
    refine ⟨schema, named, fun tokens => (tokens.bind named).toJson.indented, hn, ?_⟩
    refine bind_congr fun query => ?_
    show statement ((query.composeBound { options with dialect := named } (some schema) {}).map _) =
      statement ((query.tokens { options with dialect := named } (some schema) {}).map _)
    rw [Query.composeBound_eq_bind]
    cases query.tokens { options with dialect := named } (some schema) {} <;> rfl
  | false =>
    refine ⟨schema, named, Fragment.text named, hn, bind_congr fun query => ?_⟩
    show statement (query.compose { options with dialect := named } (some schema) {}) = _
    rw [Query.compose_eq_text]

theorem fault?_validate :
    fault? ((validate file).run files options) = fault? (loadQuery files file options.maxDepth) :=
  fault?_bind_of_ok fun _ _ => ⟨_, rfl⟩

end

variable {files : Files} {options : StatementOptions} {file : String} {task : Task}

theorem Composes.fault? (h : task.Composes files options file)
    (hd : ∀ query, loadQuery files file options.maxDepth = .ok query →
      query.HasDates options.zone) :
    DeclarativeSql.fault? (task.run files options) =
      DeclarativeSql.fault? (loadQuery files file options.maxDepth) := by
  obtain ⟨schema, dialect, form, hn, hr⟩ := h
  rw [hr]
  refine fault?_bind_of_ok fun query hq => ?_
  let named : StatementOptions := { options with dialect := dialect }
  obtain ⟨tokens, ht⟩ : ∃ tokens, query.tokens named (some schema) {} = .ok tokens :=
    Query.tokens_hasDates hn (loadQuery_accepted hq) (hd query hq)
  rw [ht]
  exact ⟨_, rfl⟩

theorem Composes.panics (h : task.Composes files options file)
    (hq : loadQuery files file options.maxDepth = .ok query)
    (hd : ¬ query.HasDates options.zone) : task.run files options = .error .panicked := by
  obtain ⟨schema, dialect, form, hn, hr⟩ := h
  let named : StatementOptions := { options with dialect := dialect }
  have ht : query.tokens named (some schema) {} = .error .panicked :=
    Query.tokens_of_not_hasDates hn (loadQuery_accepted hq) hd
  rw [hr, hq]
  show statement ((query.tokens named (some schema) {}).map form) = .error .panicked
  rw [ht]
  rfl

end Task

theorem Arguments.run_of_options {surroundings : Surroundings} {config : Option String}
    (h : loadOptions surroundings config = .ok options) (task : Task) :
    Arguments.run surroundings ⟨config, task⟩ =
      .ofAttempt (task.run surroundings.files options) := by
  simp only [Arguments.run, h]

/-- Attempts with the same fault end in the same way. -/
theorem Exit.ofAttempt_congr {attempt other : Attempt String} (h : fault? attempt = fault? other) :
    (Exit.ofAttempt attempt).code = (Exit.ofAttempt other).code ∧
      (Exit.ofAttempt attempt).errors = (Exit.ofAttempt other).errors := by
  cases attempt <;> cases other <;> simp_all [ofAttempt, success]

/-- Tasks with the same faults end in the same way, settings that do not load included. -/
theorem Arguments.run_congr {surroundings : Surroundings} {task other : Task}
    {config : Option String} (h : ∀ options, loadOptions surroundings config = .ok options →
      fault? (task.run surroundings.files options) =
        fault? (other.run surroundings.files options)) :
    (Arguments.run surroundings ⟨config, task⟩).code =
        (Arguments.run surroundings ⟨config, other⟩).code ∧
      (Arguments.run surroundings ⟨config, task⟩).errors =
        (Arguments.run surroundings ⟨config, other⟩).errors := by
  cases hl : loadOptions surroundings config with
  | error error => simp [Arguments.run, hl]
  | ok options =>
    rw [Arguments.run_of_options hl, Arguments.run_of_options hl]
    exact Exit.ofAttempt_congr (h options hl)

/-- Nothing is written exactly when the run fails. -/
def Exit.IsQuiet (exit : Exit) : Prop :=
  exit.output = "" ↔ exit.code ≠ 0

theorem Exit.success_isQuiet (line : String) : (Exit.success line).IsQuiet := by
  simp [IsQuiet, success]

theorem Exit.failure_isQuiet (lines : List String) : (Exit.failure lines).IsQuiet := by
  simp [IsQuiet, failure]

theorem Exit.ofAttempt_isQuiet (attempt : Attempt String) : (Exit.ofAttempt attempt).IsQuiet := by
  match attempt with
  | .ok line => exact Exit.success_isQuiet line
  | .error (.returned lines) => exact Exit.failure_isQuiet lines
  | .error .panicked => simp [IsQuiet, ofAttempt, panic]

theorem Arguments.run_isQuiet (surroundings : Surroundings) (arguments : Arguments) :
    (arguments.run surroundings).IsQuiet := by
  unfold Arguments.run
  split
  · exact Exit.failure_isQuiet _
  · exact Exit.ofAttempt_isQuiet _

theorem run_isQuiet (surroundings : Surroundings) (line : List String) :
    (run surroundings line).IsQuiet := by
  unfold run
  split
  · simp [Exit.IsQuiet]
  · exact Exit.success_isQuiet _
  · exact Exit.success_isQuiet _
  · exact Arguments.run_isQuiet surroundings _

theorem run_of_parsed {line : List String} (h : Arguments.ofList line = .ok arguments)
    (surroundings : Surroundings) : run surroundings line = arguments.run surroundings := by
  rw [run, h]

/-- If the file holds a query, the bounds of its range have dates in the zone of the settings. -/
def FileHasDates (surroundings : Surroundings) (config : Option String) (file : String) : Prop :=
  ∀ options query, loadOptions surroundings config = .ok options →
    loadQuery surroundings.files file options.maxDepth = .ok query → query.HasDates options.zone

/-- The three commands on one file, written in any way that the command line is read. -/
theorem verdicts_agree (surroundings : Surroundings) {checking sampling composing : List String}
    (hv : Arguments.ofList checking = .ok ⟨config, .validate file⟩)
    (hs : Arguments.ofList sampling = .ok ⟨config, .sample file⟩)
    (hc : Arguments.ofList composing =
      .ok ⟨config, .compose file (some schema) none dialect isBound⟩)
    (hn : schema ≠ "") :
    (FileHasDates surroundings config file →
      ((run surroundings checking).code = 0 ↔ (run surroundings sampling).code = 0) ∧
      ((run surroundings checking).code = 0 ↔ (run surroundings composing).code = 0) ∧
      (run surroundings sampling).errors = (run surroundings checking).errors ∧
      (run surroundings composing).errors = (run surroundings checking).errors) ∧
    (¬ FileHasDates surroundings config file →
      (run surroundings checking).code = 0 ∧
      run surroundings sampling = .panic ∧ run surroundings composing = .panic) ∧
    ∀ line, (run surroundings line).output = "" ↔ (run surroundings line).code ≠ 0 := by
  have samples options := Task.sample_composes surroundings.files options file
  have composes options := Task.compose_composes surroundings.files options file hn dialect isBound
  rw [run_of_parsed hv, run_of_parsed hs, run_of_parsed hc]
  refine ⟨fun hd => ?_, fun hd => ?_, run_isQuiet surroundings⟩
  · have hloads {task : Task} (h : ∀ options, task.Composes surroundings.files options file) :
        ∀ options, loadOptions surroundings config = .ok options →
          fault? (task.run surroundings.files options) =
            fault? ((Task.validate file).run surroundings.files options) := by
      intro options ho
      rw [Task.fault?_validate]
      exact (h options).fault? fun query => hd options query ho
    obtain ⟨hsc, hse⟩ := Arguments.run_congr (hloads samples)
    obtain ⟨hcc, hce⟩ := Arguments.run_congr (hloads composes)
    rw [hsc, hcc]
    exact ⟨Iff.rfl, Iff.rfl, hse, hce⟩
  · simp only [FileHasDates, not_forall] at hd
    obtain ⟨options, query, ho, hq, hd⟩ := hd
    have hline : (Task.validate file).run surroundings.files options =
        .ok ("OK: " ++ file ++ " is valid") := by
      rw [Task.run, hq]
      rfl
    simp only [Arguments.run_of_options ho, hline, (samples options).panics hq hd,
      (composes options).panics hq hd]
    exact ⟨rfl, rfl, rfl⟩

theorem verdicts_agree_on_spends :
    let surroundings : Surroundings :=
      { files := fun path => if path = "spend.json" then .text spendText else .missing }
    let checking := ["validate", "spend.json"]
    let sampling := ["sample", "spend.json"]
    let composing := ["compose", "spend.json", "--schema", "-", "--dialect", "legacy", "--bind"]
    Arguments.ofList checking = .ok ⟨none, .validate "spend.json"⟩ ∧
      Arguments.ofList sampling = .ok ⟨none, .sample "spend.json"⟩ ∧
      Arguments.ofList composing =
        .ok ⟨none, .compose "spend.json" (some "-") none (some .legacy) true⟩ ∧
      "-" ≠ "" ∧ FileHasDates surroundings none "spend.json" ∧
      ((run surroundings checking).code = 0 ↔ (run surroundings sampling).code = 0) ∧
      ((run surroundings checking).code = 0 ↔ (run surroundings composing).code = 0) ∧
      (run surroundings sampling).errors = (run surroundings checking).errors ∧
      (run surroundings composing).errors = (run surroundings checking).errors ∧
      ∀ line, (run surroundings line).output = "" ↔ (run surroundings line).code ≠ 0 := by
  have hf : Task.IsPath "spend.json" := ⟨by decide, rfl⟩
  have hv := ofList_words (.validate "spend.json") hf
  have hs := ofList_words (.sample "spend.json") hf
  have hc := ofList_words (.compose "spend.json" (some "-") none (some .legacy) true)
    ⟨hf, by simp [Level.isDashed], by simp⟩
  have hn : "-" ≠ "" := by decide
  intro surroundings checking sampling composing
  have hd : FileHasDates surroundings none "spend.json" := by
    intro options query ho hq
    obtain rfl : {} = options := Except.ok.inj ho
    have hload : loadQuery surroundings.files "spend.json" 64 = .ok (.composed spends) := by
      decide +kernel
    obtain rfl := Except.ok.inj (hload.symm.trans hq)
    rintro _ ⟨⟩
    exact nofun
  obtain ⟨hagree, -, hquiet⟩ := verdicts_agree surroundings hv hs hc hn
  obtain ⟨hsc, hcc, hse, hce⟩ := hagree hd
  exact ⟨hv, hs, hc, hn, hd, hsc, hcc, hse, hce, hquiet⟩

theorem verdict_without_date :
    ¬ ∀ (surroundings : Surroundings) (config : Option String) (file : String)
        (checking sampling : List String),
      Arguments.ofList checking = .ok ⟨config, .validate file⟩ →
      Arguments.ofList sampling = .ok ⟨config, .sample file⟩ →
      ((run surroundings checking).code = 0 ↔ (run surroundings sampling).code = 0) := by
  intro h
  let surroundings : Surroundings :=
    { files := fun path =>
        if path = "day.json" then .text lastDayText
        else if path = "east.toml" then .text "[compose]\ntimezone = \"+05:30\"\n"
        else .missing }
  let checking := ["validate", "day.json", "--config", "east.toml"]
  let sampling := ["sample", "day.json", "--config", "east.toml"]
  have hagree := h surroundings (some "east.toml") "day.json" checking sampling
    (by decide +kernel) (by decide +kernel)
  have hcheck : (run surroundings checking).code = 0 := by decide +kernel
  have hsample : (run surroundings sampling).code = 101 := by decide +kernel
  rw [hcheck, hsample] at hagree
  exact absurd (hagree.mp rfl) (by decide)

end Command

end DeclarativeSql
