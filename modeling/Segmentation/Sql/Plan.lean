import Segmentation.Sql.Predicate

/-!
# Query plans

A plan is a selection from one table: which records, and at most how many.
-/

namespace Segmentation.Sql

def previewLimit : UInt32 := 100

def defaultMaterializeLimit : UInt32 := 100000

/-- How many records a query may give: few for a preview, many to materialize a segment. -/
inductive RowCap
  | preview
  | materialize (limit : UInt32)
deriving DecidableEq

namespace RowCap

/-- The number of rows of a cap.  Materializing always gives more than a preview. -/
def rows : RowCap → UInt32
  | preview => previewLimit
  | materialize limit => max limit (previewLimit + 1)

end RowCap

structure TableRef where
  schema : Option String
  name : String
deriving DecidableEq

structure Plan where
  table : TableRef
  predicate : Predicate
  limit : UInt32

end Segmentation.Sql
