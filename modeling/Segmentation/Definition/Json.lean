import Segmentation.Definition
import Segmentation.Json.Decode

/-!
# Definitions as JSON

The written form of a definition and its reading.  A child of a group is an
object that names its kind next to its own keys; the two membership sets stand
among the keys of the definition.

A child is read more freely than the rest.  Its words may have an empty object under
them, and a child of a child may give its kind by number.
-/

namespace Segmentation

namespace SegmentRef

def toJson (segment : SegmentRef) : Json :=
  .object [("id", .string segment.id), ("name", .string segment.name),
    ("count", .ofNat segment.count.toNat)]

def ofJson? (json : Json) : Option SegmentRef := do
  let members ← json.asRecord? ["id", "name", "count"]
  let id ← Json.required? members "id" Json.asString?
  let name ← Json.required? members "name" Json.asString?
  let count ← Json.defaulted? members "count" 0 Json.asUInt64?
  return { id, name, count }

end SegmentRef

namespace MembershipMode

def toJson (mode : MembershipMode) : Json :=
  .string mode.name

def ofJson? : Json → Option MembershipMode :=
  Json.asWord? named

end MembershipMode

namespace Connective

def toJson (connective : Connective) : Json :=
  .string connective.name

def ofJson? : Json → Option Connective :=
  Json.asWord? named

end Connective

namespace Condition

def membersToJson (condition : Condition) : Json.Members :=
  [("field", .string condition.field), ("operator", .string condition.operator.name),
    ("value", Json.ofNullable .string condition.value),
    ("value2", Json.ofNullable .string condition.upper)]

def toJson (condition : Condition) : Json :=
  .object condition.membersToJson

/-- A condition whose operator `readOperator` reads. -/
def ofJsonWith? (readOperator : Json → Option Operator) (json : Json) : Option Condition := do
  let members ← json.asRecord? ["field", "operator", "value", "value2"]
  let field ← Json.required? members "field" Json.asString?
  let operator ← Json.required? members "operator" readOperator
  let value ← Json.defaulted? members "value" none (Json.asNullable? Json.asString?)
  let upper ← Json.defaulted? members "value2" none (Json.asNullable? Json.asString?)
  return { field, operator, value, upper }

def ofJson? : Json → Option Condition :=
  ofJsonWith? (Json.asWord? Operator.named)

end Condition

namespace Node

mutual

def toJson : Node → Json
  | .condition c => .object (("kind", .string "attribute") :: c.membersToJson)
  | .group connective children =>
    .object [("kind", .string "group"), ("operator", connective.toJson),
      ("children", .array (listToJson children))]
  | .membership segment mode =>
    .object [("kind", .string "membership"), ("segment", segment.toJson), ("mode", mode.toJson)]

def listToJson : List Node → List Json
  | [] => []
  | node :: rest => node.toJson :: listToJson rest

end

/-- The kinds a node may name. -/
inductive Kind
  | attribute
  | group
  | membership
deriving DecidableEq

/-- The kinds by name; a kind's number is its place here. -/
def Kind.named : List (String × Kind) :=
  [("attribute", .attribute), ("group", .group), ("membership", .membership)]

def Kind.ofName? : Json → Option Kind
  | .string name => named.lookup name
  | _ => none

def Kind.ofNameOrNumber? : Json → Option Kind
  | .integer (.ofNat number) => named[number]?.map Prod.snd
  | json => ofName? json

/-- What gives a node's kind, and the record it belongs to.  In an array the kind comes
first. -/
def tagged? : Json → Option (Json × Json)
  | .object members => (Json.find? members "kind").map fun kind => (kind, .object members)
  | .array (kind :: values) => some (kind, .array values)
  | _ => none

theorem sizeOf_tagged?_le {json kind body : Json} (h : tagged? json = some (kind, body)) :
    sizeOf body ≤ sizeOf json := by
  unfold tagged? at h
  split at h
  · simp only [Option.map_eq_some_iff, Prod.mk.injEq] at h
    obtain ⟨_, _, _, rfl⟩ := h
    exact Nat.le_refl _
  · cases h
    simp only [Json.array.sizeOf_spec, List.cons.sizeOf_spec]
    omega
  · cases h

/-- The connective of a group and its children as they are written. -/
def groupParts? (readConnective : Json → Option Connective) (json : Json) :
    Option (Connective × List Json) := do
  let members ← json.asRecord? ["operator", "children"]
  let connective ← Json.required? members "operator" readConnective
  let children ← Json.defaulted? members "children" [] Json.asItems?
  return (connective, children)

theorem sizeOf_child_lt {readConnective : Json → Option Connective} {json child : Json}
    {connective : Connective} {children : List Json}
    (h : groupParts? readConnective json = some (connective, children))
    (hmem : child ∈ children) : sizeOf child < sizeOf json := by
  simp only [groupParts?, Option.bind_eq_bind, Option.bind_eq_some_iff, Option.pure_def,
    Option.some.injEq, Prod.mk.injEq] at h
  obtain ⟨members, hrecord, _, _, items, hitems, _, rfl⟩ := h
  unfold Json.defaulted? at hitems
  split at hitems
  · cases hitems
    cases hmem
  · rename_i value hvalue
    have outer := Json.sizeOf_value_lt hrecord hvalue
    unfold Json.asItems? at hitems
    split at hitems
    · cases hitems
      have inner := List.sizeOf_lt_of_mem hmem
      simp only [Json.array.sizeOf_spec] at outer
      omega
    · cases hitems

/-- A node of a kind from its record. -/
def ofRecord? (json : Json) : Kind → Option Node
  | .attribute => (Condition.ofJsonWith? (Json.asLooseWord? Operator.named) json).map .condition
  | .membership => do
    let members ← json.asRecord? ["segment", "mode"]
    let segment ← Json.required? members "segment" SegmentRef.ofJson?
    let mode ← Json.required? members "mode" (Json.asLooseWord? MembershipMode.named)
    return .membership segment mode
  | .group =>
    match h : groupParts? (Json.asLooseWord? Connective.named) json with
    | none => none
    | some (connective, children) => do
      let children ← children.attach.mapM fun child =>
        match htagged : tagged? child.val with
        | none => none
        | some (kind, body) => do
          have := sizeOf_child_lt h child.property
          have := sizeOf_tagged?_le htagged
          ofRecord? body (← Kind.ofNameOrNumber? kind)
      return .group connective children
termination_by sizeOf json

def ofJson? (json : Json) : Option Node := do
  let (kind, body) ← tagged? json
  ofRecord? body (← Kind.ofName? kind)

end Node

namespace Group

def toJson (group : Group) : Json :=
  .object [("operator", group.connective.toJson),
    ("children", .array (group.children.map Node.toJson))]

def ofJson? (json : Json) : Option Group := do
  let (connective, children) ← Node.groupParts? Connective.ofJson? json
  let children ← children.mapM Node.ofJson?
  return { connective, children }

end Group

namespace Definition

def toJson (definition : Definition) : Json :=
  .object [("name", .string definition.name),
    ("description", .string definition.description),
    ("selectedDataset", Json.ofNullable .string definition.dataset),
    ("rootOperator", definition.connective.toJson),
    ("conditions", .array (definition.conditions.map Condition.toJson)),
    ("conditionGroups", .array (definition.groups.map Group.toJson)),
    ("inclusions", .array (definition.memberships.inclusions.map SegmentRef.toJson)),
    ("exclusions", .array (definition.memberships.exclusions.map SegmentRef.toJson))]

def ofJson? (json : Json) : Option Definition := do
  let members ← json.asMembers?
  let name ← Json.required? members "name" Json.asString?
  let description ← Json.defaulted? members "description" "" Json.asString?
  let dataset ← Json.defaulted? members "selectedDataset" none (Json.asNullable? Json.asString?)
  let connective ← Json.defaulted? members "rootOperator" .all Connective.ofJson?
  let conditions ← Json.defaulted? members "conditions" [] (Json.asList? Condition.ofJson?)
  let groups ← Json.defaulted? members "conditionGroups" [] (Json.asList? Group.ofJson?)
  let inclusions ← Json.defaulted? members "inclusions" [] (Json.asList? SegmentRef.ofJson?)
  let exclusions ← Json.defaulted? members "exclusions" [] (Json.asList? SegmentRef.ofJson?)
  let memberships : Memberships := { inclusions, exclusions }
  return { name, description, dataset, connective, conditions, groups, memberships }

end Definition

end Segmentation
