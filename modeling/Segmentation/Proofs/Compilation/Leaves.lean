import Segmentation.Compilation
import Segmentation.Proofs.Compilation.Meaning
import Segmentation.Proofs.Sql.Leaves

/-!
# Leaves of compiled predicates

The leaves of the predicate of a definition are those of its active conditions, in
the order in which they are written, and then those of its memberships.
-/

namespace Segmentation.Compilation

open Sql.Predicate (leaves)

variable (dataset : Dataset)

/-! ## No part is trivial -/

theorem leaves_conditionPredicate (condition : Condition) :
    (conditionPredicate dataset condition).leaves = [conditionPredicate dataset condition] := by
  unfold conditionPredicate
  cases condition.operator <;> rfl

theorem isAlways_conditionPredicate (condition : Condition) :
    (conditionPredicate dataset condition).isAlways = false := by
  unfold conditionPredicate
  cases condition.operator <;> rfl

theorem isAlways_join (connective : Connective) {parts : List Sql.Predicate} (hne : parts ≠ [])
    (h : ∀ part ∈ parts, part.isAlways = false) : (join connective parts).isAlways = false := by
  cases connective with
  | all => exact Sql.Predicate.isAlways_all hne h
  | any => exact Sql.Predicate.isAlways_any hne h

mutual

theorem isAlways_nodePredicate? : ∀ node : Node, ∀ part ∈ nodePredicate? dataset node,
    part.isAlways = false
  | .condition c, part, hpart => by
      obtain ⟨_, hsome⟩ := Option.ite_none_right_eq_some.1 hpart
      cases hsome
      exact isAlways_conditionPredicate dataset c
  | .group connective children, part, hpart => by
      obtain ⟨hactive, hsome⟩ := Option.ite_none_right_eq_some.1 hpart
      cases hsome
      apply isAlways_join connective
      · rw [Ne, nodePredicates_eq_nil_iff, hactive]
        exact nofun
      · exact isAlways_nodePredicates children
  | .membership _ _, _, hpart => by contradiction

theorem isAlways_nodePredicates : ∀ nodes : List Node, ∀ part ∈ nodePredicates dataset nodes,
    part.isAlways = false
  | [], _, hpart => by contradiction
  | node :: rest, part, hpart => by
      obtain hnode | hrest := List.mem_append.1 hpart
      · exact isAlways_nodePredicate? node part (Option.mem_toList.1 hnode)
      · exact isAlways_nodePredicates rest part hrest

end

/-! ## Leaves of nodes -/

theorem leaves_join (connective : Connective) {parts : List Sql.Predicate}
    (h : ∀ part ∈ parts, part.isAlways = false) :
    (join connective parts).leaves = parts.flatMap leaves := by
  cases connective with
  | all => exact Sql.Predicate.leaves_all parts
  | any => exact Sql.Predicate.leaves_any h

mutual

theorem leaves_nodePredicate? : ∀ node : Node,
    (nodePredicate? dataset node).toList.flatMap leaves =
      (node.conditions.filter Condition.isActive).map (conditionPredicate dataset)
  | .condition c => by
      by_cases hactive : c.isActive
      · simp [nodePredicate?, Node.conditions, hactive, leaves_conditionPredicate]
      · simp [nodePredicate?, Node.conditions, hactive]
  | .group connective children => by
      rw [nodePredicate?, Node.conditions]
      by_cases hactive : Node.anyActive children
      · rw [if_pos hactive, ← leaves_nodePredicates children,
          ← leaves_join connective (isAlways_nodePredicates dataset children)]
        exact List.append_nil _
      · have hnone : (Node.allConditions children).filter Condition.isActive = [] := by
          rw [Node.anyActive_eq_any_conditions] at hactive
          rw [List.filter_eq_nil_iff]
          simpa using hactive
        rw [if_neg hactive, hnone]
        rfl
  | .membership _ _ => rfl

theorem leaves_nodePredicates : ∀ nodes : List Node,
    (nodePredicates dataset nodes).flatMap leaves =
      ((Node.allConditions nodes).filter Condition.isActive).map (conditionPredicate dataset)
  | [] => rfl
  | node :: rest => by
      rw [nodePredicates, Node.allConditions, List.flatMap_append, List.filter_append,
        List.map_append, leaves_nodePredicate? node, leaves_nodePredicates rest]

end

/-! ## Leaves of definitions -/

/-- The active groups have the predicates of the groups as nodes. -/
theorem map_groupPredicate_filter (groups : List Group) :
    (groups.filter Group.hasActive).map (groupPredicate dataset) =
      nodePredicates dataset (groups.map Group.toNode) := by
  induction groups with
  | nil => rfl
  | cons group rest ih =>
      rw [List.map_cons, nodePredicates, ← ih, Group.toNode, nodePredicate?, ← Group.hasActive]
      by_cases hactive : group.hasActive
      · rw [List.filter_cons_of_pos hactive, if_pos hactive]
        rfl
      · rw [List.filter_cons_of_neg hactive, if_neg hactive]
        rfl

theorem allConditions_map_toNode (groups : List Group) :
    Node.allConditions (groups.map Group.toNode) =
      groups.flatMap fun group => Node.allConditions group.children := by
  induction groups with
  | nil => rfl
  | cons group rest ih =>
      rw [List.map_cons, Node.allConditions, ih]
      rfl

theorem clauses_eq (definition : Definition) :
    clauses dataset definition = definition.activeConditions.map (conditionPredicate dataset) ++
      nodePredicates dataset (definition.groups.map Group.toNode) := by
  rw [clauses, Definition.activeGroups, map_groupPredicate_filter]

theorem isAlways_clauses (definition : Definition) :
    ∀ part ∈ clauses dataset definition, part.isAlways = false := by
  intro part hpart
  rw [clauses_eq] at hpart
  obtain hcondition | hgroup := List.mem_append.1 hpart
  · obtain ⟨condition, _, rfl⟩ := List.mem_map.1 hcondition
    exact isAlways_conditionPredicate dataset condition
  · exact isAlways_nodePredicates dataset _ part hgroup

theorem leaves_clauses (definition : Definition) :
    (clauses dataset definition).flatMap leaves =
      (definition.allConditions.filter Condition.isActive).map (conditionPredicate dataset) := by
  have hconditions : (definition.activeConditions.map (conditionPredicate dataset)).flatMap leaves =
      definition.activeConditions.map (conditionPredicate dataset) := by
    rw [List.flatMap_map, List.map_eq_flatMap]
    congr 1
    funext condition
    exact leaves_conditionPredicate dataset condition
  rw [clauses_eq, List.flatMap_append, hconditions, leaves_nodePredicates,
    allConditions_map_toNode, Definition.allConditions, List.filter_append, List.map_append]
  rfl

theorem leaves_rootParts (definition : Definition) :
    (rootParts dataset definition).flatMap leaves =
      (definition.allConditions.filter Condition.isActive).map (conditionPredicate dataset) := by
  rw [← leaves_clauses, rootParts]
  cases definition.connective with
  | all => rfl
  | any =>
      rw [← Sql.Predicate.leaves_any (isAlways_clauses dataset definition)]
      exact List.append_nil _

/-- The leaves of a compiled predicate are those of the active conditions, in the order in
which they are written, and those of the memberships. -/
theorem leaves_predicate (definition : Definition) (table : MembershipTable) :
    (predicate dataset definition table).leaves =
      (definition.allConditions.filter Condition.isActive).map (conditionPredicate dataset) ++
        definition.allMemberships.toList.map (memberPredicate dataset table) := by
  have hmembers : (definition.allMemberships.toList.map (memberPredicate dataset table)).flatMap
      leaves = definition.allMemberships.toList.map (memberPredicate dataset table) := by
    rw [List.flatMap_map, List.map_eq_flatMap]
    rfl
  rw [predicate, Sql.Predicate.leaves_all, List.flatMap_append, leaves_rootParts, hmembers]

end Segmentation.Compilation
