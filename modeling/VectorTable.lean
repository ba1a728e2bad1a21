import VectorTable.Number.Binary
import VectorTable.Number.Decimal
import VectorTable.Number.Format
import VectorTable.Number.Shortest
import VectorTable.Text.Blank
import VectorTable.Text.Combining
import VectorTable.Text.Escaped
import VectorTable.Text.Unprintable
import VectorTable.Uuid
import VectorTable.Dictionary
import VectorTable.Json.Basic
import VectorTable.Json.Decode
import VectorTable.Json.Reader
import VectorTable.Json.Tree
import VectorTable.Error
import VectorTable.Identifier
import VectorTable.Sql.Token
import VectorTable.Sql.Value
import VectorTable.Distance
import VectorTable.Index
import VectorTable.Config.Store
import VectorTable.Config.Table
import VectorTable.Metadata.Basic
import VectorTable.Metadata.Value
import VectorTable.Filter
import VectorTable.Filter.Predicate
import VectorTable.Segment
import VectorTable.EmbeddingStore
import VectorTable.Column
import VectorTable.Catalog
import VectorTable.Row.Decode
import VectorTable.Row.Encode
import VectorTable.Sql.Predicate
import VectorTable.Sql.Statement
import VectorTable.Relevance
import VectorTable.Session
import VectorTable.Store
import VectorTable.Administration
import VectorTable.Proofs.Except
import VectorTable.Proofs.Catalog
import VectorTable.Proofs.Sql.Lexeme
import VectorTable.Proofs.Sql.Expression
import VectorTable.Proofs.Sql.PredicateText
import VectorTable.Proofs.Sql.Evaluation
import VectorTable.Proofs.Filter.Binding
import VectorTable.Proofs.Filter.Meaning
import VectorTable.Proofs.Filter.Translation
import VectorTable.Proofs.Row.Merge
import VectorTable.Proofs.Session.Run
import VectorTable.Proofs.Session.Refusal
import VectorTable.Proofs.Session.Atomicity
import VectorTable.Proofs.Dictionary
import VectorTable.Proofs.Number.Rounding
import VectorTable.Proofs.Metadata.Json
import VectorTable.Proofs.Row.Encode
import VectorTable.Proofs.Sql.Statement
import VectorTable.Proofs.Store.Insert
import VectorTable.Proofs.Number.Shortest
import VectorTable.Proofs.Number.Numeral
import VectorTable.Proofs.Json.Number
import VectorTable.Proofs.Json.Text
import VectorTable.Proofs.Json.RoundTrip
import VectorTable.Proofs.Uuid
import VectorTable.Proofs.Identifier
import VectorTable.Proofs.Json.MemberText
import VectorTable.Proofs.Filter.Stored
import VectorTable.Proofs.Metadata.Getters
import VectorTable.Proofs.Row.RoundTrip
import VectorTable.Proofs.Sql.Quoting
import VectorTable.Proofs.Sql.StatementText
import VectorTable.Proofs.Filter.Slots
import VectorTable.Proofs.Store.Search
import VectorTable.Proofs.Sql.Related
import VectorTable.Proofs.Metadata.Kind
import VectorTable.Proofs.Filter.Shape
import VectorTable.Proofs.Row.Shape
import VectorTable.Proofs.Store.Secrecy
import VectorTable.Proofs.Sql.Names
import VectorTable.Proofs.Sql.Renaming
import VectorTable.Proofs.Relevance
import VectorTable.Proofs.Store.Open
import VectorTable.Proofs.Config.Validation
import VectorTable.Proofs.Catalog.Roles
import VectorTable.Proofs.Store.Diverse
import VectorTable.Proofs.Catalog.Created
import VectorTable.Proofs.Metadata.RoundTrip
import VectorTable.Proofs.Relevance.Score
import VectorTable.Proofs.Relevance.Greedy
import VectorTable.Proofs.Sql.Inserts
import VectorTable.Proofs.Sql.SelectList
import VectorTable.Proofs.Row.Layout
import VectorTable.Proofs.Number.Midpoint
import VectorTable.Proofs.Number.DoubleRounding
import VectorTable.Proofs.Number.Grid
import VectorTable.Proofs.Number.Residue
import VectorTable.Proofs.Number.NearMidpoint
import VectorTable.Proofs.Number.Parse
import VectorTable.Proofs.Row.Widening
import VectorTable.Proofs.Row.NumericText
import VectorTable.Proofs.Number.WholeText
import VectorTable.Proofs.Catalog.Faults
import VectorTable.Proofs.Row.Split
import VectorTable.Proofs.Json.Grammar
import VectorTable.Proofs.Json.Lexical
import VectorTable.Proofs.Json.Accepted
import VectorTable.Proofs.Row.Precedence
import VectorTable.Proofs.Filter.Faults
import VectorTable.Proofs.Row.Parameter
import VectorTable.Proofs.Store.SearchRun
import VectorTable.Proofs.Store.Ids
import VectorTable.Proofs.Number.Value
import VectorTable.Proofs.Config.Faults
import VectorTable.Proofs.Json.Record
import VectorTable.Proofs.Config.RoundTrip
