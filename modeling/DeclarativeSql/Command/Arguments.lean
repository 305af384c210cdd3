import DeclarativeSql.Sql.Dialect

/-!
# Arguments of the command line

Arguments are taken from left to right and the first fault ends the reading. Options of the
program stand before the command, options of the command behind it; `--config` may stand in
both places, and behind the command it counts more. Behind `--` every argument is an
operand.
-/

namespace DeclarativeSql.Command

-- ---------------------------------------------------------------------------
-- Options
-- ---------------------------------------------------------------------------

inductive Switch
  | config
  | schema
  | params
  | dialect
  | bind
  | help
  | version
  deriving DecidableEq

namespace Switch

def long : Switch → String
  | config => "config"
  | schema => "schema"
  | params => "params"
  | dialect => "dialect"
  | bind => "bind"
  | help => "help"
  | version => "version"

def short : Switch → Char
  | config => 'c'
  | schema => 's'
  | params => 'p'
  | dialect => 'd'
  | bind => 'b'
  | help => 'h'
  | version => 'V'

def takesValue : Switch → Bool
  | config | schema | params | dialect => true
  | bind | help | version => false

/-- Paths are not empty, and dialects have their exact names. -/
def accepts (switch : Switch) (value : String) : Bool :=
  match switch with
  | config | params => value ≠ ""
  | dialect => (Dialect.ofName? value).isSome
  | schema | bind | help | version => true

end Switch

/-- Why the reading ends before there is anything to run. -/
inductive Stop
  | usage
  | help
  | version
  deriving DecidableEq

abbrev Parsed := Except Stop

/-- The arguments of the program or of a command so far. -/
structure Level where
  switches : List (Switch × String) := []
  operands : List String := []
  /-- The option whose value comes next. -/
  waiting : Option Switch := none

namespace Level

/-- Gives an option its value. No option is given twice. -/
def give (level : Level) (switch : Switch) (value : String) : Parsed Level :=
  match switch with
  | .help => .error .help
  | .version => .error .version
  | switch =>
    if (level.switches.lookup switch).isSome || !switch.accepts value then .error .usage
    else .ok { level with switches := level.switches ++ [(switch, value)], waiting := none }

/-- Takes the single operand of a command, which is a path. -/
def addOperand (level : Level) (operand : String) : Parsed Level :=
  if operand = "" || !level.operands.isEmpty then .error .usage
  else .ok { level with operands := [operand] }

/-- Letters behind one dash: the first one that takes a value takes the remaining ones, or the
next argument when none remain. -/
def addLetters (known : List Switch) (level : Level) : List Char → Parsed Level
  | [] => .ok level
  | letter :: rest =>
    match known.find? fun switch => switch.short = letter with
    | none => .error .usage
    | some switch =>
      if switch.takesValue then
        match rest with
        | [] => .ok { level with waiting := some switch }
        | '=' :: value => level.give switch (String.ofList value)
        | value => level.give switch (String.ofList value)
      else do addLetters known (← level.give switch "") rest

/-- A name behind two dashes, perhaps with `=` and a value. -/
def addName (known : List Switch) (level : Level) (s : List Char) : Parsed Level :=
  let name := String.ofList (s.takeWhile (· ≠ '='))
  match known.find? fun switch => switch.long = name with
  | none => .error .usage
  | some switch =>
    match s.dropWhile (· ≠ '='), switch.takesValue with
    | [], true => .ok { level with waiting := some switch }
    | [], false => level.give switch ""
    | _ :: value, true => level.give switch (String.ofList value)
    | _ :: _, false => .error .usage

/-- Whether an argument is an option, or `--`. A dash alone is an operand. -/
def isDashed (argument : String) : Bool :=
  match argument.toList with
  | '-' :: _ :: _ => true
  | _ => false

def addOption (known : List Switch) (level : Level) (argument : String) : Parsed Level :=
  match argument.toList with
  | '-' :: '-' :: name => level.addName known name
  | '-' :: letters => level.addLetters known letters
  | _ => .error .usage

end Level

-- ---------------------------------------------------------------------------
-- Commands
-- ---------------------------------------------------------------------------

inductive Verb
  | compose
  | validate
  | sample
  deriving DecidableEq

namespace Verb

def all : List Verb := [compose, validate, sample]

def name : Verb → String
  | compose => "compose"
  | validate => "validate"
  | sample => "sample"

def ofName? (name : String) : Option Verb :=
  all.find? fun verb => verb.name = name

def switches : Verb → List Switch
  | compose => [.schema, .params, .dialect, .bind, .config, .help]
  | validate | sample => [.config, .help]

end Verb

/-- What stands behind the word `help`: nothing, or one command. -/
def helpTopic : List String → Stop
  | [] => .help
  | [name] => if (Verb.ofName? name).isSome || name = "help" then .help else .usage
  | _ => .usage

/-- The arguments up to the command, the command, and the arguments behind it. -/
def readProgram (level : Level) : List String → Parsed (Level × Verb × List String)
  | [] => .error .usage
  | argument :: rest =>
    match level.waiting with
    | some switch =>
      if Level.isDashed argument then .error .usage
      else do readProgram (← level.give switch argument) rest
    | none =>
      match Verb.ofName? argument with
      | some verb => .ok (level, verb, rest)
      | none =>
        if argument = "help" then .error (helpTopic rest)
        else if Level.isDashed argument then do
          readProgram (← level.addOption [.config, .version, .help] argument) rest
        else .error .usage

/-- The arguments behind a command. -/
def readVerb (known : List Switch) (onlyOperands : Bool) (level : Level) :
    List String → Parsed Level
  | [] => if level.waiting.isSome then .error .usage else .ok level
  | argument :: rest =>
    match onlyOperands, level.waiting with
    | true, _ => do readVerb known true (← level.addOperand argument) rest
    | false, some switch =>
      if Level.isDashed argument then .error .usage
      else do readVerb known false (← level.give switch argument) rest
    | false, none =>
      if argument = "--" then readVerb known true level rest
      else if Level.isDashed argument then do
        readVerb known false (← level.addOption known argument) rest
      else do readVerb known false (← level.addOperand argument) rest

/-- What a command is asked to do. -/
inductive Task
  | compose (file : String) (schema params : Option String) (dialect : Option Dialect)
      (isBound : Bool)
  | validate (file : String)
  | sample (file : String)
  deriving DecidableEq

def Task.ofVerb (verb : Verb) (file : String) (switches : List (Switch × String)) : Task :=
  match verb with
  | .compose =>
    .compose file (switches.lookup .schema) (switches.lookup .params)
      ((switches.lookup .dialect).bind Dialect.ofName?) (switches.lookup .bind).isSome
  | .validate => .validate file
  | .sample => .sample file

structure Arguments where
  config : Option String
  task : Task
  deriving DecidableEq

def Arguments.ofList (arguments : List String) : Parsed Arguments := do
  let (outer, verb, rest) ← readProgram {} arguments
  let inner ← readVerb verb.switches false {} rest
  match inner.operands with
  | [file] =>
    let config := (inner.switches.lookup .config).or (outer.switches.lookup .config)
    return ⟨config, .ofVerb verb file inner.switches⟩
  | _ => throw .usage

end DeclarativeSql.Command
