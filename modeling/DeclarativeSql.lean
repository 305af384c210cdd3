import DeclarativeSql.Catalog.Store
import DeclarativeSql.Main
import DeclarativeSql.Proofs.Statement.Acceptance
import DeclarativeSql.Proofs.Query.Texts
import DeclarativeSql.Proofs.Statement.FirstFault
import DeclarativeSql.Proofs.Statement.Texts
import DeclarativeSql.Proofs.Sql.Reading
import DeclarativeSql.Proofs.Statement.Frame
import DeclarativeSql.Proofs.Statement.Restriction
import DeclarativeSql.Proofs.Statement.Binding
import DeclarativeSql.Proofs.Statement.Literals
import DeclarativeSql.Proofs.Wire.Documents
import DeclarativeSql.Proofs.Query.Reload
import DeclarativeSql.Proofs.Query.Nesting
import DeclarativeSql.Proofs.Query.Loading
import DeclarativeSql.Proofs.Check.WellFormed
import DeclarativeSql.Proofs.Statement.Overriding
import DeclarativeSql.Proofs.Statement.Derivation
import DeclarativeSql.Proofs.Json.Members
import DeclarativeSql.Proofs.Wire.Forms
import DeclarativeSql.Proofs.Wire.Alternatives
import DeclarativeSql.Proofs.Catalog.Isolation
import DeclarativeSql.Proofs.Statement.Dialects
import DeclarativeSql.Proofs.Command.Verdicts
import DeclarativeSql.Proofs.Statement.Shapes
import DeclarativeSql.Proofs.Statement.Cases
import DeclarativeSql.Proofs.Statement.Names
import DeclarativeSql.Proofs.Check.Locations
import DeclarativeSql.Proofs.Statement.Ranges
import DeclarativeSql.Proofs.Sql.Numerals
import DeclarativeSql.Proofs.Statement.Selecting
