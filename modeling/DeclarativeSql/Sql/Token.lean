import DeclarativeSql.Json.Number
import DeclarativeSql.Sql.Dialect

/-!
# Tokens

A statement is a list of tokens, white space included. Only names and literals look
different from one dialect to another. Pieces that a predicate or a date filter brings in
are in lower case, the frame of a statement is in upper case.

Integers and whole values below `10 ^ 21` are written as digits alone. Other values have
the fewest digits that read back, and no sign on a positive exponent.
-/

namespace DeclarativeSql

-- ---------------------------------------------------------------------------
-- Numbers
-- ---------------------------------------------------------------------------

namespace Binary64

def signText (x : Binary64) : String :=
  if x.isNegative then "-" else ""

/-- Zero has no sign. -/
def numeral (x : Binary64) : String :=
  if x.isZero then "0"
  else if x.isIntegral && x.isBelow (Nat.pow 10 21) then x.signText ++ x.shortest.wholeText
  else x.signText ++ x.shortest.render ""

end Binary64

def Number.numeral : Number → String
  | .int value => toString value
  | .float value => value.numeral

-- ---------------------------------------------------------------------------
-- Tokens
-- ---------------------------------------------------------------------------

inductive Comparison
  | equal
  | notEqual
  | less
  | greater
  | lessOrEqual
  | greaterOrEqual
  deriving DecidableEq

def Comparison.symbol : Comparison → String
  | .equal => "="
  | .notEqual => "<>"
  | .less => "<"
  | .greater => ">"
  | .lessOrEqual => "<="
  | .greaterOrEqual => ">="

inductive Token
  | select
  | fromTable
  | whereRows
  | and
  | or
  | asName
  | caseStart
  | caseWhen
  | caseThen
  | caseElse
  | caseEnd
  | null
  | isNull
  | isNotNull
  | like
  | ilike
  | lowerAnd
  | currentTimestamp
  | interval
  | comma
  | dot
  | openParen
  | closeParen
  | comparison (symbol : Comparison)
  | minus
  | space
  /-- A name that the dialect quotes when it has to. -/
  | identifier (name : String)
  /-- A column as authored, so that expressions and quoted names keep their meaning. -/
  | column (text : String)
  | qualified (schema name : String)
  | number (value : Number)
  /-- A string literal of a composition or a request; a parameter when the statement is bound. -/
  | string (value : String)
  /-- A string literal that stays in the statement. -/
  | inline (value : String)
  /-- SQL as authored. -/
  | raw (sql : String)
  deriving DecidableEq

namespace Token

def text (dialect : Dialect) : Token → String
  | select => "SELECT"
  | fromTable => "FROM"
  | whereRows => "WHERE"
  | and => "AND"
  | or => "OR"
  | asName => "AS"
  | caseStart => "CASE"
  | caseWhen => "WHEN"
  | caseThen => "THEN"
  | caseElse => "ELSE"
  | caseEnd => "END"
  | null => dialect.nullText
  | isNull => "is null"
  | isNotNull => "is not null"
  | like => "like"
  | ilike => "ilike"
  | lowerAnd => "and"
  | currentTimestamp => "current_timestamp"
  | interval => "interval"
  | comma => ","
  | dot => "."
  | openParen => "("
  | closeParen => ")"
  | comparison symbol => symbol.symbol
  | minus => "-"
  | space => " "
  | identifier name => dialect.quoteIdentifier name
  | column text => text
  | qualified schema name => dialect.quoteIdentifier schema ++ "." ++ dialect.quoteIdentifier name
  | number value => value.numeral
  | string value | inline value => dialect.quoteString value
  | raw sql => sql

end Token

end DeclarativeSql
