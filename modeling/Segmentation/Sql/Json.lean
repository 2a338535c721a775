import Segmentation.Json.Decode
import Segmentation.Sql.Query

/-!
# Plans and queries as JSON

A value, and a predicate with its parts, is an object whose only key names its
form.  A double is read as a number and written as the text of its literal.
-/

namespace Segmentation.Sql

def readDouble? : Json → Option Double
  | .real value => some value
  | .integer value => some ⟨decide (value < 0), Double.nearestRank value.natAbs 1⟩
  | _ => none

namespace Value

def toJson : Value → Json
  | .int value => .object [("Int", .integer value)]
  | .float value => .object [("Float", .string (literalStyle.write value))]
  | .numeric digits => .object [("Numeric", .string digits)]
  | .text value => .object [("Text", .string value)]

def ofJson? : Json → Option Value
  | .object [("Int", json)] => (json.asInteger? Int64.minValue.toInt Int64.maxValue.toInt).map .int
  | .object [("Float", json)] => (readDouble? json).map .float
  | .object [("Numeric", json)] => json.asString?.map .numeric
  | .object [("Text", json)] => json.asString?.map .text
  | _ => none

end Value

namespace Comparison

def name : Comparison → String
  | eq => "Eq"
  | neq => "Neq"
  | gt => "Gt"
  | lt => "Lt"

def named : List (String × Comparison) :=
  [eq, neq, gt, lt].map fun comparison => (comparison.name, comparison)

end Comparison

namespace MemberLookup

def toJson (lookup : MemberLookup) : Json :=
  .object [("table", .string lookup.table), ("segment_column", .string lookup.segmentColumn),
    ("key_column", .string lookup.keyColumn), ("segment_id", .string lookup.segmentId)]

def ofJson? (json : Json) : Option MemberLookup := do
  let members ← json.asRecord? ["table", "segment_column", "key_column", "segment_id"]
  let table ← Json.required? members "table" Json.asString?
  let segmentColumn ← Json.required? members "segment_column" Json.asString?
  let keyColumn ← Json.required? members "key_column" Json.asString?
  let segmentId ← Json.required? members "segment_id" Json.asString?
  return { table, segmentColumn, keyColumn, segmentId }

end MemberLookup

namespace Predicate

mutual

def toJson : Predicate → Json
  | .always => .string "True"
  | .compare column comparison value =>
    .object [("Compare", .object [("column", .string column),
      ("op", .string comparison.name), ("value", value.toJson)])]
  | .like column pattern negated =>
    .object [("Like", .object [("column", .string column), ("pattern", .string pattern),
      ("negated", .bool negated)])]
  | .between column low high =>
    .object [("Between", .object [("column", .string column), ("low", low.toJson),
      ("high", high.toJson)])]
  | .isNull column negated =>
    .object [("IsNull", .object [("column", .string column), ("negated", .bool negated)])]
  | .member key lookup negated =>
    .object [("Member", .object [("key", .string key), ("lookup", lookup.toJson),
      ("negated", .bool negated)])]
  | .and parts => .object [("And", .array (listToJson parts))]
  | .or parts => .object [("Or", .array (listToJson parts))]

def listToJson : List Predicate → List Json
  | [] => []
  | part :: rest => part.toJson :: listToJson rest

end

/-- A predicate without parts from its form and the keys under it. -/
def leafOfJson? (form : String) (members : Json.Members) : Option Predicate :=
  match form with
  | "Compare" => do
    let column ← Json.required? members "column" Json.asString?
    let comparison ← Json.required? members "op" (Json.asWord? Comparison.named)
    let value ← Json.required? members "value" Value.ofJson?
    return .compare column comparison value
  | "Like" => do
    let column ← Json.required? members "column" Json.asString?
    let pattern ← Json.required? members "pattern" Json.asString?
    let negated ← Json.required? members "negated" Json.asBool?
    return .like column pattern negated
  | "Between" => do
    let column ← Json.required? members "column" Json.asString?
    let low ← Json.required? members "low" Value.ofJson?
    let high ← Json.required? members "high" Value.ofJson?
    return .between column low high
  | "IsNull" => do
    let column ← Json.required? members "column" Json.asString?
    let negated ← Json.required? members "negated" Json.asBool?
    return .isNull column negated
  | "Member" => do
    let key ← Json.required? members "key" Json.asString?
    let lookup ← Json.required? members "lookup" MemberLookup.ofJson?
    let negated ← Json.required? members "negated" Json.asBool?
    return .member key lookup negated
  | _ => none

def ofJson? : Json → Option Predicate
  | .string "True" => some .always
  | .object [("True", .null)] => some .always
  | .object [("And", .array items)] => (listOfJson? items).map .and
  | .object [("Or", .array items)] => (listOfJson? items).map .or
  | .object [(form, .object members)] => leafOfJson? form members
  | _ => none
where
  listOfJson? : List Json → Option (List Predicate)
    | [] => some []
    | item :: rest => do
      let part ← ofJson? item
      let parts ← listOfJson? rest
      return part :: parts

end Predicate

namespace TableRef

def toJson (table : TableRef) : Json :=
  .object [("schema", Json.ofNullable .string table.schema), ("name", .string table.name)]

def ofJson? (json : Json) : Option TableRef := do
  let members ← json.asRecord? ["schema", "name"]
  let schema ← Json.defaulted? members "schema" none (Json.asNullable? Json.asString?)
  let name ← Json.required? members "name" Json.asString?
  return { schema, name }

end TableRef

namespace Plan

def toJson (plan : Plan) : Json :=
  .object [("table", plan.table.toJson), ("predicate", plan.predicate.toJson),
    ("limit", .ofNat plan.limit.toNat)]

def ofJson? (json : Json) : Option Plan := do
  let members ← json.asRecord? ["table", "predicate", "limit"]
  let table ← Json.required? members "table" TableRef.ofJson?
  let predicate ← Json.required? members "predicate" Predicate.ofJson?
  let limit ← Json.required? members "limit" Json.asUInt32?
  return { table, predicate, limit }

end Plan

/-- A span has its two ends and no other key. -/
def spanOfJson? (json : Json) : Option Span := do
  let members ← json.asRecord? ["start", "end"]
  guard (Json.hasOnly ["start", "end"] members)
  let start ← Json.required? members "start" (Json.asNat? UInt64.size)
  let stop ← Json.required? members "end" (Json.asNat? UInt64.size)
  return { start, stop }

namespace Query

def ofJson? (json : Json) : Option Query := do
  let members ← json.asRecord? ["sql", "params", "limit", "inline_sql", "predicate_span"]
  let sql ← Json.required? members "sql" Json.asString?
  let params ← Json.required? members "params" (Json.asList? Value.ofJson?)
  let limit ← Json.required? members "limit" Json.asUInt32?
  let inlineSql ← Json.required? members "inline_sql" Json.asString?
  let predicateSpan ← Json.required? members "predicate_span" spanOfJson?
  return { sql, params, limit, inlineSql, predicateSpan }

end Query

end Segmentation.Sql
