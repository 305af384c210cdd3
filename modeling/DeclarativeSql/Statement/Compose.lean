import DeclarativeSql.Check.Rules
import DeclarativeSql.Statement.Case

/-!
# Composing a statement

A composition becomes `SELECT columns FROM schema.table`, followed by the date filter and the
row filters in force. Faults of the columns come before the date filter, and faults of the row
filters behind it. A raw query is its own statement.
-/

namespace DeclarativeSql

inductive ComposeError
  | noSchema
  | noColumns
  | compile (error : CompileError)
  | invalid (problems : List Problem)
  deriving DecidableEq

def ComposeError.message : ComposeError → String
  | .noSchema => "Query composition error: no schema defined"
  | .noColumns => "Query composition error: no columns defined"
  | .compile error => "Compile error: " ++ error.message
  | .invalid problems => "Invalid parameters: " ++ Problem.summary problems

abbrev Composed := Except (Failure ComposeError)

/-- The schema of statements that belong to no company. -/
def sampleSchema : String := "<<SAMPLE>>"

namespace Interval

/-- Year, month and day of a bound in a zone. Asking for a date that the calendar does not have
is a panic. -/
def boundText (zone : Zone) (bound : Timestamp) : Composed String :=
  match bound.dateIn? zone with
  | some date => .ok date.plainText
  | none => .error .panicked

/-- From so many days ago on, or between two calendar dates without padding. -/
def compile (options : StatementOptions) : Interval → Composed Fragment
  | .days count =>
    .ok [.column options.dateColumn, .space, .comparison .greaterOrEqual, .space,
      .currentTimestamp, .space, .minus, .space, .interval, .space,
      .inline (count.numeral ++ " day")]
  | .range bounds => do
    let first ← boundText options.zone bounds.first
    let last ← boundText options.zone bounds.last
    return [.column options.dateColumn, .space, .comparison .greaterOrEqual, .space,
      .inline first, .space, .lowerAnd, .space, .column options.dateColumn, .space,
      .comparison .lessOrEqual, .space, .inline last]

end Interval

/-- A cased column carries its name; raw SQL names itself. -/
def Column.compile (limit : Nat) (name : String) : Column → Compiled Fragment
  | .raw sql => .ok [.raw sql]
  | .cased clauses =>
    (CaseClause.compileAll limit clauses).map fun fragment =>
      fragment ++ [.space, .asName, .space, .identifier name]

namespace Composition

/-- A schema that is asked for comes before the schema of the composition; an empty one does
not count. -/
def schemaFor? (composition : Composition) (schema : Option String) : Option String :=
  (schema.filter (· ≠ "")).or (composition.schema.filter (· ≠ ""))

def selectList (options : StatementOptions) (composition : Composition) : Compiled Fragment :=
  let compileEntry (entry : String × Column) := entry.2.compile options.maxDepth entry.1
  (composition.columns.entries.mapM compileEntry).map (Fragment.joined [.comma, .space])

/-- The date filter, if any, and the row filters. -/
def conditions (options : StatementOptions) (parameters : Parameters) :
    Composed (List Fragment) := do
  let dates ← parameters.interval.toList.mapM (Interval.compile options)
  let filters ← returning .compile <| parameters.rowFilters.mapM fun filter =>
    filter.predicate.compile options.maxDepth
  return dates ++ filters

/-- The conditions behind `WHERE`, or nothing without conditions. -/
def restriction : List Fragment → Fragment
  | [] => []
  | conditions =>
    [.space, .whereRows, .space] ++ Fragment.joined [.space, .and, .space] conditions

def compile (options : StatementOptions) (schema : String) (parameters : Parameters)
    (composition : Composition) : Composed Fragment := do
  let columns ← returning .compile (composition.selectList options)
  let conditions ← conditions options parameters
  return [.select, .space] ++ columns ++
    [.space, .fromTable, .space, .qualified schema composition.table] ++ restriction conditions

/-- The schema in use and the tokens of the statement. -/
def compose (options : StatementOptions) (schema : Option String) (overrides : Overrides)
    (composition : Composition) : Composed (String × Fragment) :=
  match composition.schemaFor? schema with
  | none => .error (.returned .noSchema)
  | some schema =>
    if composition.columns.isEmpty then .error (.returned .noColumns)
    else
      (composition.compile options schema (overrides.apply composition.parameters)).map
        fun statement => (schema, statement)

end Composition

namespace Query

def compose (options : StatementOptions) (schema : Option String) (overrides : Overrides)
    (query : Query) : Composed String :=
  match query.source with
  | .raw sql => .ok sql
  | .composition composition =>
    (composition.compose options schema overrides).map fun (_, statement) =>
      statement.text options.dialect

/-- The statement with the texts of the composition and the request as parameters. -/
def composeBound (options : StatementOptions) (schema : Option String) (overrides : Overrides)
    (query : Query) : Composed BoundSql :=
  match query.source with
  | .raw sql => .ok ⟨sql, []⟩
  | .composition composition =>
    (composition.compose options schema overrides).map fun (_, statement) =>
      statement.bind options.dialect

/-- Refuses overrides with problems before composing. -/
def composeChecked (options : StatementOptions) (schema : Option String) (overrides : Overrides)
    (query : Query) : Composed String :=
  match overrides.problems options.maxDepth with
  | [] => query.compose options schema overrides
  | problems => .error (.returned (.invalid problems))

/-- The statement for the sample schema, without overrides. -/
def sample (options : StatementOptions) (query : Query) : Composed String :=
  query.compose options (some sampleSchema) {}

end Query

end DeclarativeSql
