import DeclarativeSql.Settings.Wire
import DeclarativeSql.Toml.Reader

/-!
# Loading settings

A configuration file is TOML. The file named by the environment comes first, then the one in
the working folder, then the one of the user; without any the defaults hold.
-/

namespace DeclarativeSql

-- ---------------------------------------------------------------------------
-- Files
-- ---------------------------------------------------------------------------

/-- What a program finds at a path. -/
inductive FileContent
  | missing
  /-- The path goes on behind a file. -/
  | behindFile
  | folder
  /-- The path, or a component of it, is longer than a system allows. -/
  | nameTooLong
  | forbidden
  /-- Bytes that are not text. -/
  | bytes
  | text (content : String)
  deriving DecidableEq

abbrev Files := String → FileContent

namespace FileContent

/-- Whether there is something at the path. -/
def isPresent : FileContent → Bool
  | missing | behindFile | nameTooLong => false
  | folder | forbidden | bytes | text _ => true

/-- The text of a file, or why there is none. -/
def read : FileContent → Except String String
  | missing => .error "No such file or directory (os error 2)"
  | behindFile => .error "Not a directory (os error 20)"
  | folder => .error "Is a directory (os error 21)"
  | nameTooLong => .error "File name too long (os error 36)"
  | forbidden => .error "Permission denied (os error 13)"
  | bytes => .error "stream did not contain valid UTF-8"
  | text content => .ok content

end FileContent

-- ---------------------------------------------------------------------------
-- Settings in TOML
-- ---------------------------------------------------------------------------

namespace Toml

/-- Integers of up to 128 bits have a value. -/
def isInRange (value : Int) : Bool :=
  -(Nat.pow 2 127 : Int) ≤ value && value < (Nat.pow 2 128 : Int)

mutual
/-- The tree that decoders read. A number out of range is a fault wherever it stands. -/
def Value.node : Value → Node
  | .string value => .string value
  | .integer value => if isInRange value then .number (.int value) else .broken
  | .float isTooLarge => if isTooLarge then .broken else .unreadable
  | .boolean value => .bool value
  | .dateTime => .object [(some "date-time", .null)]
  | .array items => .array (nodes items)
  | .tables items => .array (nodes items)
  | .table _ entries => .object (members entries)
def nodes : List Value → List Node
  | [] => []
  | item :: rest => item.node :: nodes rest
def members : List (String × Value) → List Member
  | [] => []
  | (name, value) :: rest => (some name, value.node) :: members rest
end

/-- The name of a dialect, or a table with that name alone and an empty value. -/
def dialectOfNode : Node → Decoded Dialect
  | .object [(name, .object [])] => Dialect.ofNode (.object [(name, .null)])
  | .object [(name, .array [])] => Dialect.ofNode (.object [(name, .null)])
  | .object _ => .error .malformed
  | node => Dialect.ofNode node

/-- An array may hold more items than a section has members. -/
def surplusDropped (count : Nat) : Node → Node
  | .array items => .array (items.take count)
  | node => node

end Toml

namespace Settings

def tomlFields : Fields [ComposeSettings, LoggingSettings] :=
  let compose (node : Node) :=
    ComposeSettings.ofNode Toml.dialectOfNode (Toml.surplusDropped 4 node)
  let logging (node : Node) := LoggingSettings.ofNode (Toml.surplusDropped 1 node)
  .cons (optional "compose" compose {}) <| .cons (optional "logging" logging {}) .nil

def ofToml? (text : String) : Option Settings := do
  let root ← Toml.read? text
  match tomlFields.ofMembers false (Toml.members root) with
  | .ok (compose, logging, ()) => some ⟨compose, logging⟩
  | .error _ => none

end Settings

inductive SettingsError
  | fileNotFound (path : String)
  | unreadable (reason : String)
  | unparsable
  | invalid (fault : SettingsFault)
  deriving DecidableEq

def SettingsError.message : SettingsError → String
  | .fileNotFound path => "Config file not found: " ++ path
  | .unreadable reason => "Failed to read config file: " ++ reason
  | .unparsable => "Failed to parse config file: not a table of settings"
  | .invalid fault => "Invalid configuration: " ++ fault.message

/-- Where settings are looked for. -/
structure Surroundings where
  files : Files
  /-- The path in the environment, which has to lead to a file. -/
  configPath : Option String := none
  userPath : Option String := none

namespace Settings

def ofFile (files : Files) (path : String) : Except SettingsError Settings :=
  let content := files path
  if !content.isPresent then .error (.fileNotFound path)
  else
    match content.read with
    | .error reason => .error (.unreadable reason)
    | .ok text =>
      match ofToml? text with
      | none => .error .unparsable
      | some settings => .ok settings

/-- The file in the working folder. -/
def localPath : String := "sqlcompose.toml"

def load (surroundings : Surroundings) : Except SettingsError Settings :=
  match surroundings.configPath with
  | some path => ofFile surroundings.files path
  | none =>
    let candidates := localPath :: surroundings.userPath.toList
    match candidates.find? fun path => (surroundings.files path).isPresent with
    | some path => ofFile surroundings.files path
    | none => .ok {}

end Settings

end DeclarativeSql
