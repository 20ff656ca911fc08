import DocStore.Database
import DocStore.Decode.Fields
import DocStore.Decode.Outline
import DocStore.Index.Interchange
import DocStore.Index.Outline
import DocStore.Proofs.Binary64.Rounding
import DocStore.Proofs.Binary64.Shortest
import DocStore.Proofs.Index.Convergence
import DocStore.Proofs.Index.Difference
import DocStore.Proofs.Index.Reading
import DocStore.Proofs.Json.Canonical
import DocStore.Proofs.Json.Literal
import DocStore.Proofs.Json.Number
import DocStore.Proofs.Json.RoundTrip
import DocStore.Proofs.Json.Tokens
import DocStore.Proofs.Outcome
import DocStore.Proofs.Query.Predicate
import DocStore.Proofs.Query.Update
import DocStore.Proofs.Sql.Brackets
import DocStore.Proofs.Sql.Filling
import DocStore.Proofs.Sql.Scanning
import DocStore.Proofs.Statement.Running
import DocStore.Proofs.Text.Digits
import DocStore.Proofs.Value.Canonical
import DocStore.Proofs.Value.Storable
import DocStore.Query.Outline
import DocStore.Statement.Script
import DocStore.Proofs.Query.Readability
import DocStore.Proofs.Statement.Clauses
import DocStore.Proofs.Collection.Calls
import DocStore.Proofs.Collection.Fetching
import DocStore.Proofs.Collection.Reading
import DocStore.Proofs.Collection.IndexNames
import DocStore.Proofs.Collection.Uniqueness
import DocStore.Proofs.Collection.Atomicity
import DocStore.Proofs.Collection.Batches
import DocStore.Proofs.Collection.IdIndex
import DocStore.Proofs.Decode.RoundTrip
import DocStore.Proofs.Value.Secrecy
import DocStore.Proofs.Database.Listing
import DocStore.Proofs.Value.FixedPoint
import DocStore.Proofs.Value.Exclusion
import DocStore.Proofs.Statement.Failing
import DocStore.Proofs.Collection.Failing
import DocStore.Proofs.Query.Selection
import DocStore.Proofs.Engine.Selection
import DocStore.Proofs.Collection.OneByOne
import DocStore.Proofs.Value.Replacement
import DocStore.Proofs.Value.Neutral
import DocStore.Proofs.Value.Objects
import DocStore.Proofs.Value.Nulls
import DocStore.Proofs.Value.Nesting
import DocStore.Proofs.Index.Recognition
import DocStore.Proofs.Binary64.Value
import DocStore.Proofs.Time.Instants
import DocStore.Proofs.Time.WholeSeconds
import DocStore.Proofs.Collection.Paging
import DocStore.Proofs.Text.Words
import DocStore.Proofs.Toml.Reading
import DocStore.Proofs.Config.Saving
import DocStore.Proofs.Database.Columns
