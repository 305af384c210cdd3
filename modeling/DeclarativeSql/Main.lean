import DeclarativeSql.Command.Run

/-!
# The command line

Every file that a run may look at is read beforehand; the run itself is `Command.run`.
-/

namespace DeclarativeSql

/-- What stands at a path of the file system. -/
def readPath (path : String) : IO FileContent := do
  try
    let bytes ← IO.FS.readBinFile path
    match String.fromUTF8? bytes with
    | some content => return .text content
    | none => return .bytes
  catch
    | .inappropriateType _ 21 _ => return .folder
    | .inappropriateType .. => return .behindFile
    | .invalidArgument .. => return .nameTooLong
    | .permissionDenied .. => return .forbidden
    | _ => return .missing

def userConfigPath : IO (Option String) := do
  match ← IO.getEnv "XDG_CONFIG_HOME", ← IO.getEnv "HOME" with
  | some folder, _ => return some (folder ++ "/sqlcompose/config.toml")
  | none, some home => return some (home ++ "/.config/sqlcompose/config.toml")
  | none, none => return none

end DeclarativeSql

open DeclarativeSql in
def main (arguments : List String) : IO UInt32 := do
  let surroundings : Surroundings :=
    { files := fun _ => .missing
      configPath := ← IO.getEnv "SQLCOMPOSE_CONFIG"
      userPath := ← userConfigPath }
  let paths := Command.candidatePaths surroundings arguments
  let contents ← paths.mapM fun path => return (path, ← readPath path)
  let files : Files := fun path => (contents.lookup path).getD .missing
  let result := Command.run { surroundings with files } arguments
  IO.print result.output
  result.errors.forM IO.eprintln
  return result.code.toUInt32
