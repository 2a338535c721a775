import Segmentation.Json.Decode
import Segmentation.Settings

/-!
# Settings as JSON

What is not mentioned keeps its default.
-/

namespace Segmentation

namespace MembershipTable

def toJson (table : MembershipTable) : Json :=
  .object [("table", .string table.table), ("segment_column", .string table.segmentColumn),
    ("key_column", .string table.keyColumn)]

def ofJson? (json : Json) : Option MembershipTable := do
  let members ← json.asRecord? ["table", "segment_column", "key_column"]
  let base : MembershipTable := {}
  let table ← Json.defaulted? members "table" base.table Json.asString?
  let segmentColumn ← Json.defaulted? members "segment_column" base.segmentColumn Json.asString?
  let keyColumn ← Json.defaulted? members "key_column" base.keyColumn Json.asString?
  return { table, segmentColumn, keyColumn }

end MembershipTable

namespace Settings

def toJson (settings : Settings) : Json :=
  .object [("timeout_ms", .ofNat settings.timeout), ("dialect", .string settings.dialect.name),
    ("membership", settings.membership.toJson),
    ("materialize_limit", .ofNat settings.materializeLimit.toNat)]

def ofJson? (json : Json) : Option Settings := do
  let members ← json.asRecord? ["timeout_ms", "dialect", "membership", "materialize_limit"]
  let base : Settings := {}
  let timeout ← Json.defaulted? members "timeout_ms" base.timeout (Json.asNat? UInt64.size)
  let dialect ← Json.defaulted? members "dialect" base.dialect (Json.asWord? Sql.Dialect.named)
  let membership ← Json.defaulted? members "membership" base.membership MembershipTable.ofJson?
  let materializeLimit ←
    Json.defaulted? members "materialize_limit" base.materializeLimit Json.asUInt32?
  return { timeout, dialect, membership, materializeLimit }

end Settings

end Segmentation
