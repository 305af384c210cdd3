import DeclarativeSql.Json.Record
import DeclarativeSql.Settings.Basic

/-!
# The written form of settings

Both sections and all of their members may be absent. How a dialect is written depends on
the format of the file, so its decoder is a parameter.
-/

namespace DeclarativeSql

def Dialect.ofNode (node : Node) : Decoded Dialect := do
  let name ← node.asVariant (Dialect.all.map Dialect.name)
  match Dialect.ofName? name with
  | some dialect => return dialect
  | none => throw .malformed

namespace ComposeSettings

def fields (dialect : Node → Decoded Dialect) : Fields [Dialect, String, String, Nat] :=
  .cons (optional "dialect" dialect .postgres) <|
  .cons (optional "date_column" Node.asString "daily_cohort") <|
  .cons (optional "timezone" Node.asString "local") <|
  .cons (optional "max_depth" Node.asNatural Check.defaultDepth) .nil

def ofNode (dialect : Node → Decoded Dialect) (node : Node) : Decoded ComposeSettings := do
  let (dialect, dateColumn, timezone, maxDepth, ()) ← (fields dialect).decode false node
  return ⟨dialect, dateColumn, timezone, maxDepth⟩

def toJson (settings : ComposeSettings) : Json :=
  .object
    [("dialect", .string settings.dialect.name), ("date_column", .string settings.dateColumn),
     ("timezone", .string settings.timezone), ("max_depth", .number (.int settings.maxDepth))]

end ComposeSettings

namespace LoggingSettings

def fields : Fields [String] :=
  .cons (optional "filter" Node.asString "warn") .nil

def ofNode (node : Node) : Decoded LoggingSettings := do
  let (filter, ()) ← fields.decode false node
  return ⟨filter⟩

def toJson (settings : LoggingSettings) : Json :=
  .object [("filter", .string settings.filter)]

end LoggingSettings

namespace Settings

def fields : Fields [ComposeSettings, LoggingSettings] :=
  .cons (optional "compose" (ComposeSettings.ofNode Dialect.ofNode) {}) <|
  .cons (optional "logging" LoggingSettings.ofNode {}) .nil

def ofNode (node : Node) : Decoded Settings := do
  let (compose, logging, ()) ← fields.decode false node
  return ⟨compose, logging⟩

def toJson (settings : Settings) : Json :=
  .object [("compose", settings.compose.toJson), ("logging", settings.logging.toJson)]

end Settings

end DeclarativeSql
