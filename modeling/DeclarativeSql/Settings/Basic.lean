import DeclarativeSql.Check.Rules
import DeclarativeSql.Statement.Options
import DeclarativeSql.Text.Basic

/-!
# Settings

What a configuration file says. Settings hold the text of the zone; `Settings.options`
reads it, and refuses settings that no statement can be composed with.
-/

namespace DeclarativeSql

structure ComposeSettings where
  dialect : Dialect := .postgres
  dateColumn : String := "daily_cohort"
  timezone : String := "local"
  maxDepth : Nat := Check.defaultDepth
  deriving DecidableEq

structure LoggingSettings where
  filter : String := "warn"
  deriving DecidableEq

structure Settings where
  compose : ComposeSettings := {}
  logging : LoggingSettings := {}
  deriving DecidableEq

inductive SettingsFault
  | blankDateColumn
  | zeroDepth
  | invalidZone (error : Zone.Error)
  deriving DecidableEq

def SettingsFault.message : SettingsFault → String
  | .blankDateColumn => "compose.date_column must not be empty"
  | .zeroDepth => "compose.max_depth must be at least 1"
  | .invalidZone error => error.message

/-- The options for statements, or the first fault. -/
def Settings.options (settings : Settings) : Except SettingsFault StatementOptions :=
  let compose := settings.compose
  if Text.isBlank compose.dateColumn then .error .blankDateColumn
  else if compose.maxDepth = 0 then .error .zeroDepth
  else
    match Zone.ofText compose.timezone with
    | .error error => .error (.invalidZone error)
    | .ok zone =>
      .ok { dialect := compose.dialect, dateColumn := compose.dateColumn, zone,
            maxDepth := compose.maxDepth }

end DeclarativeSql
