import Segmentation.Sql.Statement
import Segmentation.Text.Span

/-!
# Queries

A query is what is sent to a database and shown to a user: the bound statement
with its parameters, the inline statement, and where the predicate stands in it.
-/

namespace Segmentation.Sql

structure Query where
  sql : String
  params : List Value
  limit : UInt32
  inlineSql : String
  predicateSpan : Span
deriving DecidableEq

namespace Query

/-- The predicate as it stands in the inline statement, or nothing if the span does
not mark a part of it. -/
def inlinePredicate (query : Query) : String :=
  (query.predicateSpan.cut? query.inlineSql).getD ""

end Query

/-- The query of a plan. -/
def Plan.toQuery (plan : Plan) (dialect : Dialect) : Query where
  sql := boundText dialect 1 plan.pieces
  params := parameters plan.pieces
  limit := plan.limit
  inlineSql := inlineText plan.pieces
  predicateSpan :=
    let start := (inlineText plan.headPieces).utf8ByteSize
    ⟨start, start + (inlineText plan.predicatePieces).utf8ByteSize⟩

end Segmentation.Sql
