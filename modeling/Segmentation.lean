import Segmentation.Cache.Key
import Segmentation.Cache.QueryCache
import Segmentation.Compilation
import Segmentation.Condition
import Segmentation.Dataset
import Segmentation.Dataset.Json
import Segmentation.Definition
import Segmentation.Definition.Json
import Segmentation.Digest.Blake3
import Segmentation.Edit
import Segmentation.Group
import Segmentation.Json.Basic
import Segmentation.Json.Decode
import Segmentation.Json.Printer
import Segmentation.Json.Reader
import Segmentation.Language.Failure
import Segmentation.Language.Grammar
import Segmentation.Language.Lexeme
import Segmentation.Language.Reader
import Segmentation.Membership
import Segmentation.Number.Double
import Segmentation.Number.Numeral
import Segmentation.Number.Shortest
import Segmentation.Preview.Rehearsal
import Segmentation.Preview.Session
import Segmentation.Preview.State
import Segmentation.Proofs.Definition
import Segmentation.Proofs.Membership
import Segmentation.Proofs.Sql.Truth
import Segmentation.RestorePoint
import Segmentation.Revision
import Segmentation.Settings
import Segmentation.Settings.Json
import Segmentation.Sql.Json
import Segmentation.Sql.Plan
import Segmentation.Sql.Predicate
import Segmentation.Sql.Query
import Segmentation.Sql.Statement
import Segmentation.Sql.Value
import Segmentation.Table
import Segmentation.Text.Blank
import Segmentation.Text.CaseTable
import Segmentation.Text.Lowercase
import Segmentation.Text.Quoted
import Segmentation.Text.Ranges
import Segmentation.Text.Span
import Segmentation.Text.UnshownTable
import Segmentation.Proofs.Compilation.Meaning
import Segmentation.Proofs.Sql.Token
import Segmentation.Proofs.Sql.Pieces
import Segmentation.Proofs.Sql.Reading
import Segmentation.Proofs.Sql.RoundTrip
import Segmentation.Proofs.Preview.Session
import Segmentation.Proofs.Preview.LastRequest
import Segmentation.Proofs.Sql.Template
import Segmentation.Proofs.Compilation.Shape
import Segmentation.Proofs.Revision.Baseline
import Segmentation.Proofs.Cache.Encoding
import Segmentation.Proofs.Cache.Faithful
import Segmentation.Proofs.Preview.Unobserved
import Segmentation.Proofs.Language.Written
import Segmentation.Proofs.Language.Reader
import Segmentation.Proofs.Language.Lexeme
import Segmentation.Proofs.Language.Meaning
import Segmentation.Proofs.Language.Clauses
import Segmentation.Proofs.Language.Groups
import Segmentation.Proofs.Language.Acceptance
import Segmentation.Proofs.Language.WellShaped
import Segmentation.Proofs.Language.Expressible
import Segmentation.Proofs.Cache.Run
import Segmentation.Proofs.Number.Plain
import Segmentation.Proofs.Sql.Literal
import Segmentation.Proofs.Compilation.Leaves
import Segmentation.Proofs.Sql.Inline
import Segmentation.Proofs.Sql.Leaves
import Segmentation.Proofs.Sql.Fragments
import Segmentation.Proofs.Sql.Names
import Segmentation.Proofs.Compilation.Gates
import Segmentation.Proofs.Compilation.Patterns
import Segmentation.Proofs.Number.Digits
import Segmentation.Proofs.Number.Rounding
import Segmentation.Proofs.Number.Nearest
import Segmentation.Proofs.Number.Shortest
import Segmentation.Proofs.Number.Spelling
import Segmentation.Proofs.Number.Written
import Segmentation.Proofs.Sql.Typed
import Segmentation.Proofs.Compilation.Proper
import Segmentation.Proofs.Preview.Dispatch
import Segmentation.Proofs.Preview.Settlement
import Segmentation.Proofs.Preview.Rest
import Segmentation.Proofs.Preview.Expectation
import Segmentation.Proofs.Preview.Deadline
import Segmentation.Proofs.Preview.LastQuery
import Segmentation.Proofs.Text.Span
import Segmentation.Proofs.Sql.InlinePredicate
import Segmentation.Proofs.Compilation.Everything
import Segmentation.Proofs.Compilation.Parameters
import Segmentation.Proofs.Compilation.Irrelevant
import Segmentation.Proofs.Language.Stable
import Segmentation.Proofs.Language.Tracking
import Segmentation.Proofs.Language.Viable
import Segmentation.Proofs.Language.Padding
import Segmentation.Proofs.History
import Segmentation.Proofs.Revision.Restoring
import Segmentation.Proofs.Cache.Accounting
import Segmentation.Proofs.Sql.Parts
import Segmentation.Proofs.Preview.Materialization
import Segmentation.Proofs.Table
import Segmentation.Proofs.Preview.Reply
import Segmentation.Proofs.Membership.Run
import Segmentation.Proofs.Sql.Classification
import Segmentation.Proofs.Json.Covers
import Segmentation.Proofs.Definition.Json
import Segmentation.Proofs.Compilation.Rules
