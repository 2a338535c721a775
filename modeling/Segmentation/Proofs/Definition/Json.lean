import Segmentation.Definition.Json
import Segmentation.Proofs.Json.Covers

/-!
# Definitions through JSON

A definition is read from what is written of it, and from all that covers this: whatever order the
keys have in any of the objects, that of a node's kind included, and whatever other keys stand
there.  What is written has all keys that the readers look for, so the keys it does not have are
those that no reader knows.  How a value is written as text is no part of this.
-/

namespace Segmentation

open Json (Reads Covers CoversMembers)

/-! ### Words -/

theorem MembershipMode.lookup_name (mode : MembershipMode) :
    named.lookup mode.name = some mode := by
  cases mode <;> rfl

theorem Connective.lookup_name (connective : Connective) :
    named.lookup connective.name = some connective := by
  cases connective <;> rfl

theorem Operator.lookup_name (operator : Operator) :
    named.lookup operator.name = some operator := by
  cases operator <;> rfl

theorem Connective.reads_ofJson? (connective : Connective) :
    Reads ofJson? connective.toJson connective :=
  Json.reads_asWord? connective.lookup_name

/-! ### Records -/

theorem SegmentRef.reads_ofJson? (segment : SegmentRef) :
    Reads ofJson? segment.toJson segment := by
  intro json hcovers
  obtain ⟨members, rfl, h⟩ :=
    hcovers.exists_members (by decide : ["id", "name", "count"].Nodup)
  have hid : Json.required? members "id" Json.asString? = some segment.id :=
    h.required?_eq rfl (Json.reads_asString? segment.id)
  have hname : Json.required? members "name" Json.asString? = some segment.name :=
    h.required?_eq rfl (Json.reads_asString? segment.name)
  have hcount : Json.defaulted? members "count" 0 Json.asUInt64? = some segment.count :=
    h.defaulted?_eq 0 rfl (Json.reads_asUInt64? segment.count)
  simp only [ofJson?, Json.asRecord?, hid, hname, hcount, Option.bind_eq_bind, Option.bind_some,
    Option.pure_def]

namespace Condition

variable {readOperator : Json → Option Operator}

theorem ofJsonWith?_of_coversMembers {condition : Condition} {members : Json.Members}
    (h : CoversMembers members condition.membersToJson)
    (hoperator : Reads readOperator (.string condition.operator.name) condition.operator) :
    ofJsonWith? readOperator (.object members) = some condition := by
  have hfield : Json.required? members "field" Json.asString? = some condition.field :=
    h.required?_eq rfl (Json.reads_asString? condition.field)
  have hoperator : Json.required? members "operator" readOperator = some condition.operator :=
    h.required?_eq rfl hoperator
  have hvalue : Json.defaulted? members "value" none (Json.asNullable? Json.asString?) =
      some condition.value := h.defaulted?_eq none rfl (Json.reads_asNullable? condition.value)
  have hupper : Json.defaulted? members "value2" none (Json.asNullable? Json.asString?) =
      some condition.upper := h.defaulted?_eq none rfl (Json.reads_asNullable? condition.upper)
  simp only [ofJsonWith?, Json.asRecord?, hfield, hoperator, hvalue, hupper, Option.bind_eq_bind,
    Option.bind_some, Option.pure_def]

theorem reads_ofJson? (condition : Condition) : Reads ofJson? condition.toJson condition := by
  intro json hcovers
  obtain ⟨members, rfl, h⟩ :=
    hcovers.exists_members (by decide : ["field", "operator", "value", "value2"].Nodup)
  exact ofJsonWith?_of_coversMembers h (Json.reads_asWord? condition.operator.lookup_name)

end Condition

/-! ### Nodes -/

namespace Node

/-- The kind that is written with a node. -/
def kind : Node → Kind
  | .condition _ => .attribute
  | .group _ _ => .group
  | .membership _ _ => .membership

def Kind.name : Kind → String
  | .attribute => "attribute"
  | .group => "group"
  | .membership => "membership"

theorem Kind.lookup_name (kind : Kind) : named.lookup kind.name = some kind := by
  cases kind <;> rfl

/-- A child of a group. -/
def ofChild? (json : Json) : Option Node :=
  (tagged? json).bind fun (kind, body) => (Kind.ofNameOrNumber? kind).bind (ofRecord? body)

theorem ofChild?_eq {json kind body : Json} (h : tagged? json = some (kind, body)) :
    ofChild? json = (Kind.ofNameOrNumber? kind).bind (ofRecord? body) := by
  rw [ofChild?, h, Option.bind_some]

theorem ofRecord?_group {json : Json} {connective : Connective} {children : List Json}
    (hparts : groupParts? (Json.asLooseWord? Connective.named) json = some (connective, children)) :
    ofRecord? json .group = (children.mapM ofChild?).map (.group connective) := by
  rw [ofRecord?]
  split
  · next hnone =>
      rw [hparts] at hnone
      contradiction
  · next found items hfound =>
      obtain ⟨rfl, rfl⟩ := Prod.mk.inj (Option.some.inj (hfound.symm.trans hparts))
      -- the reader of an attached child does not look at the proof that comes with it
      rw [List.mapM_subtype (fun child hmem => ?_), List.unattach_attach]
      · exact Option.map_eq_bind.symm
      · split
        · next hnone => rw [ofChild?, hnone, Option.bind_none]
        · next htagged => exact (ofChild?_eq htagged).symm

/-- The connective of a group and its children, which are read one by one. -/
theorem exists_groupParts? {readConnective : Json → Option Connective} {connective : Connective}
    {children : List Json} {members : Json.Members}
    (h : CoversMembers members
      [("operator", connective.toJson), ("children", .array children)])
    (hconnective : Reads readConnective connective.toJson connective) :
    ∃ given, groupParts? readConnective (.object members) = some (connective, given) ∧
      List.Forall₂ Covers given children := by
  have hoperator : Json.required? members "operator" readConnective = some connective :=
    h.required?_eq rfl hconnective
  obtain ⟨found, hfound, hcovers⟩ := h "children" (.array children) rfl
  obtain ⟨given, rfl, hitems⟩ := hcovers.exists_items
  have hchildren : Json.defaulted? members "children" [] Json.asItems? = some given := by
    rw [Json.defaulted?, hfound]
    rfl
  refine ⟨given, ?_, hitems⟩
  simp only [groupParts?, Json.asRecord?, hoperator, hchildren, Option.bind_eq_bind,
    Option.bind_some, Option.pure_def]

/-- Whether a value is the record of a node and names the node's kind. -/
structure IsRecordOf (json : Json) (node : Node) : Prop where
  tagged : tagged? json = some (.string node.kind.name, json)
  read : ofRecord? json node.kind = some node

theorem IsRecordOf.ofJson?_eq {json : Json} {node : Node} (h : IsRecordOf json node) :
    ofJson? json = some node := by
  have hkind : Kind.ofName? (.string node.kind.name) = some node.kind := node.kind.lookup_name
  simp only [ofJson?, h.tagged, hkind, Option.bind_eq_bind, Option.bind_some]
  exact h.read

theorem IsRecordOf.ofChild?_eq {json : Json} {node : Node} (h : IsRecordOf json node) :
    ofChild? json = some node := by
  have hkind : Kind.ofNameOrNumber? (.string node.kind.name) = some node.kind :=
    node.kind.lookup_name
  rw [Node.ofChild?_eq h.tagged, hkind, Option.bind_some, h.read]

theorem tagged?_of_coversMembers {members written : Json.Members} {name : String}
    (h : CoversMembers members (("kind", .string name) :: written)) :
    tagged? (.object members) = some (.string name, .object members) := by
  obtain ⟨_, hfound, ⟨⟩⟩ := h "kind" (.string name) rfl
  rw [tagged?, hfound, Option.map_some]

mutual

theorem isRecordOf_of_covers : ∀ (node : Node) {json : Json}, json.Covers node.toJson →
    IsRecordOf json node
  | .condition c, json, hcovers => by
      rw [toJson] at hcovers
      obtain ⟨members, rfl, h⟩ := hcovers.exists_members
        (by decide : ["kind", "field", "operator", "value", "value2"].Nodup)
      refine ⟨tagged?_of_coversMembers h, ?_⟩
      have hread := Condition.ofJsonWith?_of_coversMembers
        (h.of_cons (by decide : "kind" ∉ ["field", "operator", "value", "value2"]))
        (Json.reads_asLooseWord? c.operator.lookup_name)
      rw [kind, ofRecord?, hread, Option.map_some]
  | .group connective children, json, hcovers => by
      rw [toJson] at hcovers
      obtain ⟨members, rfl, h⟩ :=
        hcovers.exists_members (by decide : ["kind", "operator", "children"].Nodup)
      refine ⟨tagged?_of_coversMembers h, ?_⟩
      obtain ⟨given, hparts, hitems⟩ := exists_groupParts?
        (h.of_cons (by decide : "kind" ∉ ["operator", "children"]))
        (Json.reads_asLooseWord? connective.lookup_name)
      rw [kind, ofRecord?_group hparts, mapM_of_covers children hitems, Option.map_some]
  | .membership segment mode, json, hcovers => by
      rw [toJson] at hcovers
      obtain ⟨members, rfl, h⟩ :=
        hcovers.exists_members (by decide : ["kind", "segment", "mode"].Nodup)
      refine ⟨tagged?_of_coversMembers h, ?_⟩
      have hsegment : Json.required? members "segment" SegmentRef.ofJson? = some segment :=
        h.required?_eq rfl segment.reads_ofJson?
      have hmode : Json.required? members "mode" (Json.asLooseWord? MembershipMode.named) =
          some mode := h.required?_eq rfl (Json.reads_asLooseWord? mode.lookup_name)
      simp only [kind, ofRecord?, Json.asRecord?, hsegment, hmode, Option.bind_eq_bind,
        Option.bind_some, Option.pure_def]

theorem mapM_of_covers : ∀ (nodes : List Node) {given : List Json},
    List.Forall₂ Covers given (listToJson nodes) → given.mapM ofChild? = some nodes
  | [], _, .nil => rfl
  | node :: rest, _, .cons hchild hrest => by
      rw [List.mapM_cons, (isRecordOf_of_covers node hchild).ofChild?_eq,
        mapM_of_covers rest hrest]
      rfl

end

theorem reads_ofJson? (node : Node) : Reads ofJson? node.toJson node :=
  fun _ hcovers => (isRecordOf_of_covers node hcovers).ofJson?_eq

end Node

/-! ### Groups and definitions -/

theorem Group.reads_ofJson? (group : Group) : Reads ofJson? group.toJson group := by
  intro json hcovers
  obtain ⟨members, rfl, h⟩ := hcovers.exists_members (by decide : ["operator", "children"].Nodup)
  obtain ⟨given, hparts, hitems⟩ := Node.exists_groupParts? h group.connective.reads_ofJson?
  have hchildren := Json.reads_asList? Node.reads_ofJson? group.children
  have hnodes : given.mapM Node.ofJson? = some group.children := hchildren _ (.array hitems)
  simp only [ofJson?, hparts, hnodes, Option.bind_eq_bind, Option.bind_some, Option.pure_def]

namespace Definition

theorem reads_ofJson? (definition : Definition) :
    Reads ofJson? definition.toJson definition := by
  intro json hcovers
  obtain ⟨members, rfl, h⟩ := hcovers.exists_members
    (by decide : ["name", "description", "selectedDataset", "rootOperator", "conditions",
      "conditionGroups", "inclusions", "exclusions"].Nodup)
  have hname : Json.required? members "name" Json.asString? = some definition.name :=
    h.required?_eq rfl (Json.reads_asString? definition.name)
  have hdescription : Json.defaulted? members "description" "" Json.asString? =
      some definition.description :=
    h.defaulted?_eq "" rfl (Json.reads_asString? definition.description)
  have hdataset : Json.defaulted? members "selectedDataset" none
      (Json.asNullable? Json.asString?) = some definition.dataset :=
    h.defaulted?_eq none rfl (Json.reads_asNullable? definition.dataset)
  have hconnective : Json.defaulted? members "rootOperator" .all Connective.ofJson? =
      some definition.connective :=
    h.defaulted?_eq .all rfl definition.connective.reads_ofJson?
  have hconditions : Json.defaulted? members "conditions" [] (Json.asList? Condition.ofJson?) =
      some definition.conditions :=
    h.defaulted?_eq [] rfl (Json.reads_asList? Condition.reads_ofJson? _)
  have hgroups : Json.defaulted? members "conditionGroups" [] (Json.asList? Group.ofJson?) =
      some definition.groups :=
    h.defaulted?_eq [] rfl (Json.reads_asList? Group.reads_ofJson? _)
  have hinclusions : Json.defaulted? members "inclusions" [] (Json.asList? SegmentRef.ofJson?) =
      some definition.memberships.inclusions :=
    h.defaulted?_eq [] rfl (Json.reads_asList? SegmentRef.reads_ofJson? _)
  have hexclusions : Json.defaulted? members "exclusions" [] (Json.asList? SegmentRef.ofJson?) =
      some definition.memberships.exclusions :=
    h.defaulted?_eq [] rfl (Json.reads_asList? SegmentRef.reads_ofJson? _)
  simp only [ofJson?, Json.asMembers?, hname, hdescription, hdataset, hconnective, hconditions,
    hgroups, hinclusions, hexclusions, Option.bind_eq_bind, Option.bind_some, Option.pure_def]

/-- A definition is read from what is written of it, and also if the keys of any object in it are
put in another order, that of a node's kind among them, and others are added. -/
theorem ofJson?_toJson_and_covers (definition : Definition) :
    ofJson? definition.toJson = some definition ∧
      ∀ json : Json, json.Covers definition.toJson → ofJson? json = some definition :=
  ⟨definition.reads_ofJson? _ (.same _), definition.reads_ofJson?⟩

/-- In every object the keys are in reverse order, and there is one more. -/
theorem ofJson?_reversed :
    let segment : SegmentRef := { id := "seg1", name := "Loyal", count := 18446744073709551615 }
    let definition : Definition :=
      { name := "Hanoi"
        groups := [{ children := [.group .any [.membership segment .excl]] }] }
    let reversed (members : Json.Members) : Json := .object (("extra", .null) :: members.reverse)
    let node : Json := reversed
      [("kind", .string "membership"), ("segment", segment.toJson), ("mode", .string "exclude")]
    let inner : Json := reversed
      [("kind", .string "group"), ("operator", .string "OR"), ("children", .array [node])]
    let group : Json := reversed [("operator", .string "AND"), ("children", .array [inner])]
    let json : Json := reversed
      [("name", .string "Hanoi"), ("description", .string ""), ("selectedDataset", .null),
        ("rootOperator", .string "AND"), ("conditions", .array []),
        ("conditionGroups", .array [group]), ("inclusions", .array []), ("exclusions", .array [])]
    json.Covers definition.toJson ∧ ofJson? json = some definition := by
  intro segment definition reversed node inner group json
  have hreversed : ∀ {kept written : Json.Members},
      kept.map Prod.fst = written.map Prod.fst →
      List.Forall₂ Covers (kept.map Prod.snd) (written.map Prod.snd) →
      "extra" ∉ written.map Prod.fst → (reversed kept).Covers (.object written) := by
    intro kept written hkeys hvalues hnew
    have horder : (("extra", Json.null) :: kept.reverse).Perm (kept ++ [("extra", .null)]) :=
      ((List.reverse_perm kept).cons _).trans (List.perm_append_singleton _ _).symm
    refine .object hkeys hvalues (fun member hmember => ?_) horder
    rw [List.mem_singleton.1 hmember]
    exact hnew
  have hnode : node.Covers (Node.membership segment .excl).toJson :=
    hreversed rfl (.cons (.same _) (.cons (.same _) (.cons (.same _) .nil)))
      (by decide : "extra" ∉ ["kind", "segment", "mode"])
  have hinner : inner.Covers (Node.group .any [.membership segment .excl]).toJson :=
    hreversed rfl (.cons (.same _) (.cons (.same _) (.cons (.array (.cons hnode .nil)) .nil)))
      (by decide : "extra" ∉ ["kind", "operator", "children"])
  have hgroup : group.Covers
      (Group.toJson { children := [.group .any [.membership segment .excl]] }) :=
    hreversed rfl (.cons (.same _) (.cons (.array (.cons hinner .nil)) .nil))
      (by decide : "extra" ∉ ["operator", "children"])
  have hcovers : json.Covers definition.toJson :=
    hreversed rfl (.cons (.same _) (.cons (.same _) (.cons (.same _) (.cons (.same _)
      (.cons (.same _) (.cons (.array (.cons hgroup .nil)) (.cons (.same _)
        (.cons (.same _) .nil))))))))
      (by decide : "extra" ∉ ["name", "description", "selectedDataset", "rootOperator",
        "conditions", "conditionGroups", "inclusions", "exclusions"])
  exact ⟨hcovers, (ofJson?_toJson_and_covers definition).2 json hcovers⟩

end Definition

end Segmentation
