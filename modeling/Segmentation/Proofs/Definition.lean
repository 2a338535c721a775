import Segmentation.Definition

/-!
# Parts of definitions

The conditions, the nodes and the memberships of a definition at any depth, and the shape
that definitions have when every condition in them has the operands that its operator takes
and no others, and neither set of memberships has an identifier twice.
-/

namespace Segmentation

namespace Node

mutual

/-- The conditions in a node, at any depth. -/
def conditions : Node → List Condition
  | .condition c => [c]
  | .group _ children => allConditions children
  | .membership _ _ => []

def allConditions : List Node → List Condition
  | [] => []
  | node :: rest => node.conditions ++ allConditions rest

end

mutual

/-- A node and the nodes below it, in the order in which they are written. -/
def descendants : Node → List Node
  | .condition c => [.condition c]
  | .group connective children => .group connective children :: allDescendants children
  | .membership segment mode => [.membership segment mode]

def allDescendants : List Node → List Node
  | [] => []
  | node :: rest => node.descendants ++ allDescendants rest

end

/-- The segment and the mode of a membership. -/
def membership? : Node → Option (SegmentRef × MembershipMode)
  | .membership segment mode => some (segment, mode)
  | _ => none

mutual

theorem filterMap_descendants : ∀ node : Node,
    node.descendants.filterMap membership? = node.memberships
  | .condition _ => rfl
  | .group _ children => by
      rw [descendants, memberships, ← filterMap_allDescendants children]
      rfl
  | .membership _ _ => rfl

theorem filterMap_allDescendants : ∀ nodes : List Node,
    (allDescendants nodes).filterMap membership? = allMemberships nodes
  | [] => rfl
  | node :: rest => by
      rw [allDescendants, allMemberships, List.filterMap_append, filterMap_descendants node,
        filterMap_allDescendants rest]

end

end Node

/-- A value exactly if the operator is not a null test, and an upper bound exactly if it
is a range. -/
structure Condition.HasOperands (condition : Condition) : Prop where
  value : condition.value.isSome ↔
    condition.operator ≠ .isNull ∧ condition.operator ≠ .isNotNull
  upper : condition.upper.isSome ↔ condition.operator = .between

/-- The conditions of a definition, those in its groups last. -/
def Definition.allConditions (definition : Definition) : List Condition :=
  definition.conditions ++
    definition.groups.flatMap fun group => Node.allConditions group.children

/-- The nodes in the groups of a definition, at any depth, in the order in which they are
written. -/
def Definition.nodes (definition : Definition) : List Node :=
  definition.groups.flatMap fun group => Node.allDescendants group.children

theorem Definition.filterMap_nodes (definition : Definition) :
    definition.nodes.filterMap Node.membership? = definition.groupMemberships := by
  rw [nodes, groupMemberships, List.filterMap_flatMap]
  congr 1
  funext group
  exact Node.filterMap_allDescendants group.children

structure Definition.IsWellShaped (definition : Definition) : Prop where
  operands : ∀ condition ∈ definition.allConditions, condition.HasOperands
  inclusions : (definition.memberships.inclusions.map SegmentRef.id).Nodup
  exclusions : (definition.memberships.exclusions.map SegmentRef.id).Nodup

theorem Operator.needsValue_iff {op : Operator} :
    op.needsValue ↔ op ≠ .isNull ∧ op ≠ .isNotNull := by
  cases op <;> decide

theorem Operator.needsUpper_iff {op : Operator} : op.needsUpper ↔ op = .between := by
  cases op <;> decide

theorem Operator.needsValue_of_needsUpper {op : Operator} (h : op.needsUpper) :
    op.needsValue := by
  obtain rfl := needsUpper_iff.1 h
  rfl

theorem Operator.needsUpper_eq_false {op : Operator} (h : op.needsValue = false) :
    op.needsUpper = false := by
  rw [← Bool.not_eq_true]
  intro hupper
  rw [needsValue_of_needsUpper hupper] at h
  contradiction

/-- An operand that is not given reads like one that is empty. -/
theorem Condition.getD_present (operand : Option String) :
    (Condition.present operand).getD "" = operand.getD "" := by
  cases operand with
  | none => rfl
  | some text =>
      rw [Condition.present]
      split
      · next hempty => exact (String.isEmpty_iff.1 hempty).symm
      · rfl

/-- Said by what the operator needs, a condition has no other operands. -/
theorem Condition.hasOperands_iff {condition : Condition} :
    condition.HasOperands ↔
      condition.value.isSome = condition.operator.needsValue ∧
        condition.upper.isSome = condition.operator.needsUpper := by
  constructor
  · rintro ⟨hvalue, hupper⟩
    exact ⟨Bool.eq_iff_iff.2 (hvalue.trans Operator.needsValue_iff.symm),
      Bool.eq_iff_iff.2 (hupper.trans Operator.needsUpper_iff.symm)⟩
  · rintro ⟨hvalue, hupper⟩
    exact ⟨by rw [hvalue, Operator.needsValue_iff], by rw [hupper, Operator.needsUpper_iff]⟩

end Segmentation
