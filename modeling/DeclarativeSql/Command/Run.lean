import DeclarativeSql.Command.Arguments
import DeclarativeSql.Settings.Load
import DeclarativeSql.Statement.Compose
import DeclarativeSql.Wire.Document

/-!
# Running a command

A run reads settings and documents, and ends with a statement or a verdict on its output, or
with lines that say what went wrong. A panic ends it with a code of its own; the report of the
panic is no line of the run.
-/

namespace DeclarativeSql.Command

structure Exit where
  code : Nat
  output : String
  errors : List String
  deriving DecidableEq

namespace Exit

def success (line : String) : Exit :=
  ⟨0, line ++ "\n", []⟩

def failure (lines : List String) : Exit :=
  ⟨1, "", lines⟩

def panic : Exit :=
  ⟨101, "", []⟩

end Exit

/-- A result, or the lines that say why there is none. -/
abbrev Attempt := Except (Failure (List String))

def Exit.ofAttempt : Attempt String → Exit
  | .ok line => .success line
  | .error (.returned lines) => .failure lines
  | .error .panicked => .panic

def readFile (files : Files) (path : String) : Attempt String :=
  returning (fun reason => ["Error reading file '" ++ path ++ "': " ++ reason]) (files path).read

def loadQuery (files : Files) (path : String) (limit : Nat) : Attempt Query := do
  let text ← readFile files path
  returning (fun problems =>
    "Validation errors:" :: problems.map fun problem => "  " ++ problem.message)
    (Query.ofText limit text)

def loadOverrides (files : Files) (path : String) (limit : Nat) : Attempt Overrides := do
  let text ← readFile files path
  let overrides ← returning (fun error =>
    ["Invalid parameters in '" ++ path ++ "': " ++ error.message])
    (decodeText Overrides.ofNode text)
  match overrides.problems limit with
  | [] => return overrides
  | problems => throw (.returned ["Invalid parameters: " ++ Problem.summary problems])

def statement (result : Composed String) : Attempt String :=
  result.mapError (Failure.map fun error => [error.message])

/-- The line that a task writes. -/
def Task.run (files : Files) (options : StatementOptions) : Task → Attempt String
  | .compose file schema params dialect isBound => do
    let options := { options with dialect := dialect.getD options.dialect }
    let query ← loadQuery files file options.maxDepth
    let overrides ← match params with
      | some path => loadOverrides files path options.maxDepth
      | none => pure {}
    if isBound then
      let bound := query.composeBound options schema overrides
      statement (bound.map fun bound => bound.toJson.indented)
    else statement (query.compose options schema overrides)
  | .validate file => do
    let _ ← loadQuery files file options.maxDepth
    return "OK: " ++ file ++ " is valid"
  | .sample file => do
    let query ← loadQuery files file options.maxDepth
    statement (query.sample options)

/-- The settings that an argument names, or those found in the surroundings. -/
def loadOptions (surroundings : Surroundings) (config : Option String) :
    Except SettingsError StatementOptions := do
  let settings ← match config with
    | some path => Settings.ofFile surroundings.files path
    | none => Settings.load surroundings
  settings.options.mapError .invalid

def Arguments.run (surroundings : Surroundings) (arguments : Arguments) : Exit :=
  match loadOptions surroundings arguments.config with
  | .error error => .failure ["Configuration error: " ++ error.message]
  | .ok options => .ofAttempt (arguments.task.run surroundings.files options)

def versionText : String := "sqlcompose 0.1.0"

def usageText : String :=
  "Usage: sqlcompose [--config <path>] <compose|validate|sample> <file> [options]"

def run (surroundings : Surroundings) (arguments : List String) : Exit :=
  match Arguments.ofList arguments with
  | .error .usage => ⟨2, "", [usageText]⟩
  | .error .help => .success usageText
  | .error .version => .success versionText
  | .ok arguments => arguments.run surroundings

/-- Every path that a run may look at. -/
def candidatePaths (surroundings : Surroundings) (arguments : List String) : List String :=
  match Arguments.ofList arguments with
  | .error _ => []
  | .ok ⟨config, task⟩ =>
    let settings := config.toList ++ surroundings.configPath.toList ++
      [Settings.localPath] ++ surroundings.userPath.toList
    match task with
    | .compose file _ params _ _ => settings ++ [file] ++ params.toList
    | .validate file | .sample file => settings ++ [file]

end DeclarativeSql.Command
