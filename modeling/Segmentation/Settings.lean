import Segmentation.Sql.Statement

/-!
# Settings

How statements are written and how long a preview may take.
-/

namespace Segmentation

/-- The table that lists which records are members of which segments. -/
structure MembershipTable where
  table : String := "segment_members"
  segmentColumn : String := "segment_id"
  keyColumn : String := "customer_id"
deriving DecidableEq

structure Settings where
  /-- In whole milliseconds, the resolution of timers. -/
  timeout : Nat := 30000
  dialect : Sql.Dialect := .postgres
  membership : MembershipTable := {}
  materializeLimit : UInt32 := Sql.defaultMaterializeLimit
deriving DecidableEq

namespace Settings

/-- The settings with a timeout given in microseconds; a part of a millisecond is dropped. -/
def withMicroseconds (settings : Settings) (timeout : Nat) : Settings :=
  { settings with timeout := timeout / 1000 }

/-- The limit used to materialize a segment, which is always above the preview limit. -/
def effectiveMaterializeLimit (settings : Settings) : UInt32 :=
  if settings.materializeLimit ≤ Sql.previewLimit then Sql.previewLimit + 1
  else settings.materializeLimit

end Settings

end Segmentation
