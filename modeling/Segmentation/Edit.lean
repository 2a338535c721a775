import Segmentation.RestorePoint

/-!
# Editing definitions

The changes a user can make to a definition, each with what it answers.  A
change at a place that does not exist leaves the definition as it is.
-/

namespace Segmentation

/-- A change to a definition. -/
inductive Definition.Edit
  | rename (name : String)
  | describe (description : String)
  | selectDataset (dataset : Option String)
  | setConnective (connective : Connective)
  | addCondition (condition : Condition)
  | updateCondition (index : Nat) (condition : Condition)
  | setValue (index : Nat) (value : Option String)
  | removeCondition (index : Nat)
  | clearConditions
  | addGroup (group : Group)
  | pushChild (index : Nat) (child : Node)
  | removeGroup (index : Nat)
  | addMembership (segment : SegmentRef) (mode : MembershipMode)
  | removeMembership (id : String) (mode : MembershipMode)
  /-- Takes over the restorable parts of another definition. -/
  | adopt (source : Definition)

/-- What a change gives back besides the changed definition. -/
inductive Definition.Edit.Result
  | nothing
  /-- The place that was to be changed does not exist. -/
  | absent
  | index (index : Nat)
  | done (changed : Bool)
  | condition (removed : Option Condition)
  | group (removed : Option Group)
  | membership (outcome : AddOutcome)
  /-- Whether the restorable parts were the same before and after. -/
  | agreement (before after : Bool)

/-- The definition after a change, and what the change gives back. -/
def Definition.edit (definition : Definition) : Edit → Definition × Edit.Result
  | .rename name => ({ definition with name }, .nothing)
  | .describe description => ({ definition with description }, .nothing)
  | .selectDataset dataset => ({ definition with dataset }, .nothing)
  | .setConnective connective => ({ definition with connective }, .nothing)
  | .addCondition condition =>
    ({ definition with conditions := definition.conditions ++ [condition] },
      .index definition.conditions.length)
  | .updateCondition index condition =>
    ({ definition with conditions := definition.conditions.set index condition },
      .done (index < definition.conditions.length))
  | .setValue index value =>
    ({ definition with
        conditions := definition.conditions.modify index fun condition =>
          { condition with value } },
      if index < definition.conditions.length then .nothing else .absent)
  | .removeCondition index =>
    ({ definition with conditions := definition.conditions.eraseIdx index },
      .condition definition.conditions[index]?)
  | .clearConditions => ({ definition with conditions := [] }, .nothing)
  | .addGroup group =>
    ({ definition with groups := definition.groups ++ [group] },
      .index definition.groups.length)
  | .pushChild index child =>
    ({ definition with
        groups := definition.groups.modify index fun group =>
          { group with children := group.children ++ [child] } },
      if index < definition.groups.length then .nothing else .absent)
  | .removeGroup index =>
    ({ definition with groups := definition.groups.eraseIdx index },
      .group definition.groups[index]?)
  | .addMembership segment mode =>
    let (memberships, outcome) := definition.memberships.add segment mode
    ({ definition with memberships }, .membership outcome)
  | .removeMembership id mode =>
    let (memberships, found) := definition.memberships.remove id mode
    ({ definition with memberships }, .done found)
  | .adopt source =>
    let point := RestorePoint.of source
    let adopted := point.restore definition
    (adopted, .agreement (point.agrees definition) (point.agrees adopted))

/-- The definition after changes in order, and what each of them gives back. -/
def Definition.editAll (definition : Definition) :
    List Edit → Definition × List Edit.Result
  | [] => (definition, [])
  | edit :: rest =>
    let (definition, result) := definition.edit edit
    let (definition, results) := definition.editAll rest
    (definition, result :: results)

end Segmentation
