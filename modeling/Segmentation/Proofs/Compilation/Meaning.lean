import Segmentation.Proofs.Compilation.Rules
import Segmentation.Proofs.Membership
import Segmentation.Proofs.Sql.Truth

/-!
# The meaning of definitions

A definition has a truth value of its own, computed from the definition alone:
from the tests that its active conditions and its memberships stand for, wherever
they are written, and from its groups.  The main statement is that compilation
preserves it, whatever the truth values of the tests.
-/

namespace Segmentation

open Sql (Truth)

/-! ## Active parts -/

namespace Node

/-- Whether some condition in the node, at any depth, is active. -/
def counts (node : Node) : Bool :=
  node.conditions.any Condition.isActive

mutual

theorem isActive_eq_counts : ∀ node : Node, node.isActive = node.counts
  | .condition c => by simp [isActive, counts, conditions]
  | .group _ children => by
      rw [isActive, anyActive_eq_any_conditions children, counts, conditions]
  | .membership _ _ => rfl

theorem anyActive_eq_any_conditions :
    ∀ nodes : List Node, anyActive nodes = (allConditions nodes).any Condition.isActive
  | [] => rfl
  | node :: rest => by
      rw [anyActive, allConditions, List.any_append, ← anyActive_eq_any_conditions rest,
        isActive_eq_counts node, counts]

end

end Node

namespace Group

/-- Whether some condition in the group, at any depth, is active. -/
def counts (group : Group) : Bool :=
  group.toNode.counts

theorem hasActive_eq_counts (group : Group) : group.hasActive = group.counts :=
  Node.isActive_eq_counts group.toNode

end Group

/-! ## Meaning -/

/-- The truth value of parts joined by a connective. -/
def Connective.combine : Connective → List Truth → Truth
  | .all => Truth.conj
  | .any => Truth.disj

section

variable (leaf : Sql.Predicate → Truth) (dataset : Dataset)

/-- A condition means the test that it stands for. -/
def Condition.meaning (condition : Condition) : Truth :=
  leaf (condition.test dataset)

mutual

/-- A group means its active children joined by its connective.  A membership has no
meaning within a group; it holds no condition, so it is never one of those children. -/
def Node.meaning : Node → Truth
  | .condition c => c.meaning leaf dataset
  | .group connective children => connective.combine (Node.activeMeanings children)
  | .membership _ _ => .yes

/-- The meanings of the active ones among some nodes. -/
def Node.activeMeanings : List Node → List Truth
  | [] => []
  | node :: rest =>
    if node.counts then node.meaning :: Node.activeMeanings rest else Node.activeMeanings rest

end

def Group.meaning (group : Group) : Truth :=
  group.toNode.meaning leaf dataset

namespace Definition

/-- The meanings of the active conditions and the active groups. -/
def clauseMeanings (definition : Definition) : List Truth :=
  (definition.conditions.filter Condition.isActive).map (Condition.meaning leaf dataset)
    ++ (definition.groups.filter Group.counts).map (Group.meaning leaf dataset)

/-- The clauses joined by the root connective; without clauses there is no constraint. -/
def rootMeaning (definition : Definition) : Truth :=
  if definition.clauseMeanings leaf dataset = [] then .yes
  else definition.connective.combine (definition.clauseMeanings leaf dataset)

/-- The memberships that are written anywhere in a definition, as often as they are written. -/
def writtenMemberships (definition : Definition) : List (SegmentRef × MembershipMode) :=
  definition.memberships.toList ++ definition.nodes.filterMap Node.membership?

/-- The root clauses and every membership hold. -/
def meaning (table : MembershipTable) (definition : Definition) : Truth :=
  (definition.rootMeaning leaf dataset).and
    (Truth.conj (definition.writtenMemberships.map fun entry =>
      leaf (table.test dataset.keyColumn entry)))

end Definition

end

/-! ## Compilation preserves meaning -/

namespace Compilation

open Sql.Predicate (eval)

variable (leaf : Sql.Predicate → Truth) (dataset : Dataset)

theorem eval_conditionPredicate (condition : Condition) :
    (conditionPredicate dataset condition).eval leaf = condition.meaning leaf dataset := by
  rw [Condition.meaning, ← conditionPredicate_eq_test, conditionPredicate]
  cases condition.operator <;> rfl

theorem eval_join (connective : Connective) {parts : List Sql.Predicate} (hparts : parts ≠ []) :
    (join connective parts).eval leaf = connective.combine (parts.map (eval leaf)) := by
  cases connective with
  | all => exact Sql.Predicate.eval_all leaf parts
  | any => exact Sql.Predicate.eval_any leaf hparts

mutual

theorem nodePredicates_eq_nil_iff : ∀ nodes : List Node,
    nodePredicates dataset nodes = [] ↔ Node.anyActive nodes = false
  | [] => by simp [nodePredicates, Node.anyActive]
  | node :: rest => by
      rw [nodePredicates, Node.anyActive, List.append_eq_nil_iff, Bool.or_eq_false_iff,
        nodePredicates_eq_nil_iff rest, Option.toList_eq_nil_iff,
        nodePredicate?_eq_none_iff node]

theorem nodePredicate?_eq_none_iff : ∀ node : Node,
    nodePredicate? dataset node = none ↔ node.isActive = false
  | .condition c => by simp [nodePredicate?, Node.isActive]
  | .group connective children => by simp [nodePredicate?, Node.isActive]
  | .membership segment mode => by simp [nodePredicate?, Node.isActive]

end

mutual

/-- A child that takes part has the meaning of its predicate. -/
theorem eval_nodePredicate? : ∀ node : Node,
    (nodePredicate? dataset node).map (eval leaf) =
      if node.counts then some (node.meaning leaf dataset) else none
  | .condition c => by
      rw [← Node.isActive_eq_counts, nodePredicate?, Node.isActive, Node.meaning]
      split
      · rw [Option.map_some, eval_conditionPredicate]
      · rfl
  | .group connective children => by
      rw [← Node.isActive_eq_counts, nodePredicate?, Node.isActive, Node.meaning]
      split
      · next hactive =>
          have hparts : nodePredicates dataset children ≠ [] := by
            rw [ne_eq, nodePredicates_eq_nil_iff, hactive]
            simp
          rw [Option.map_some, eval_join leaf connective hparts, eval_nodePredicates children]
      · rfl
  | .membership _ _ => rfl

theorem eval_nodePredicates : ∀ nodes : List Node,
    (nodePredicates dataset nodes).map (eval leaf) = Node.activeMeanings leaf dataset nodes
  | [] => rfl
  | node :: rest => by
      rw [nodePredicates, Node.activeMeanings, List.map_append, eval_nodePredicates rest,
        ← Option.toList_map, eval_nodePredicate? node]
      split <;> rfl

end

theorem eval_groupPredicate {group : Group} (hactive : group.hasActive) :
    (groupPredicate dataset group).eval leaf = group.meaning leaf dataset := by
  have hparts : nodePredicates dataset group.children ≠ [] := by
    rw [ne_eq, nodePredicates_eq_nil_iff, ← Group.hasActive, hactive]
    simp
  rw [groupPredicate, eval_join leaf _ hparts, eval_nodePredicates, Group.meaning, Group.toNode,
    Node.meaning]

theorem eval_clauses (definition : Definition) :
    (clauses dataset definition).map (eval leaf) = definition.clauseMeanings leaf dataset := by
  have hconditions : (definition.activeConditions.map (conditionPredicate dataset)).map
      (eval leaf) =
        (definition.conditions.filter Condition.isActive).map (Condition.meaning leaf dataset) := by
    rw [List.map_map, Definition.activeConditions]
    exact List.map_congr_left fun condition _ => eval_conditionPredicate leaf dataset condition
  have hgroups : (definition.activeGroups.map (groupPredicate dataset)).map (eval leaf) =
      (definition.groups.filter Group.counts).map (Group.meaning leaf dataset) := by
    rw [List.map_map, Definition.activeGroups, ← funext Group.hasActive_eq_counts]
    apply List.map_congr_left
    intro group hmem
    exact eval_groupPredicate leaf dataset (List.mem_filter.mp hmem).2
  rw [clauses, List.map_append, hconditions, hgroups, Definition.clauseMeanings]

/-- The root parts hold together when the root clauses do, joined by the root connective. -/
theorem conj_eval_rootParts (definition : Definition) :
    Truth.conj ((rootParts dataset definition).map (eval leaf)) =
      definition.rootMeaning leaf dataset := by
  have hclauses := eval_clauses leaf dataset definition
  rw [rootParts, Definition.rootMeaning]
  cases definition.connective with
  | all =>
      simp only [hclauses, Connective.combine]
      split
      · next hnil => rw [hnil, Truth.conj_nil]
      · rfl
  | any =>
      simp only [List.map_cons, List.map_nil, Truth.conj_cons, Truth.conj_nil, Truth.and_yes]
      by_cases hnil : clauses dataset definition = []
      · have hmeanings : definition.clauseMeanings leaf dataset = [] := by
          rw [← hclauses, hnil, List.map_nil]
        rw [if_pos hmeanings, hnil]
        rfl
      · have hmeanings : definition.clauseMeanings leaf dataset ≠ [] := by
          rw [← hclauses, ne_eq, List.map_eq_nil_iff]
          exact hnil
        rw [if_neg hmeanings, Sql.Predicate.eval_any leaf hnil, hclauses, Connective.combine]

/-- The memberships that are tested are those that are written, each of them once. -/
theorem conj_leaf_allMemberships (table : MembershipTable) (definition : Definition) :
    Truth.conj ((definition.allMemberships.toList.map (memberPredicate dataset table)).map
        (eval leaf)) =
      Truth.conj (definition.writtenMemberships.map fun entry =>
        leaf (table.test dataset.keyColumn entry)) := by
  -- The test of a membership reads only the identifier and the mode of its entry.
  let test : String × MembershipMode → Truth := fun key =>
    leaf (table.test dataset.keyColumn ({ id := key.1, name := "", count := 0 }, key.2))
  have htest : ∀ entries : List (SegmentRef × MembershipMode),
      (entries.map fun entry => leaf (table.test dataset.keyColumn entry)) =
        (Memberships.keys entries).map test := by
    intro entries
    rw [Memberships.keys, List.map_map]
    apply List.map_congr_left
    rintro ⟨segment, mode⟩ _
    cases mode <;> rfl
  have heval : (definition.allMemberships.toList.map (memberPredicate dataset table)).map
      (eval leaf) = definition.allMemberships.toList.map fun entry =>
        leaf (table.test dataset.keyColumn entry) := by
    rw [List.map_map]
    apply List.map_congr_left
    intro entry _
    rw [← memberPredicate_eq_test]
    rfl
  rw [heval, htest, htest]
  apply Truth.conj_eq_of_mem_iff
  intro value
  rw [Definition.writtenMemberships, Definition.filterMap_nodes]
  simp only [List.mem_map]
  exact exists_congr fun key =>
    and_congr_left fun _ => Memberships.mem_keys_foldl_add _ _ key

end Compilation

/-- Compilation preserves meaning: the predicate of a plan has the truth value of the
definition, for every truth value that the leaves can take. -/
theorem Definition.eval_toPlan (leaf : Sql.Predicate → Truth) (dataset : Dataset)
    (definition : Definition) (table : MembershipTable) (cap : Sql.RowCap) :
    (definition.toPlan dataset table cap).predicate.eval leaf =
      definition.meaning leaf dataset table := by
  change (Compilation.predicate dataset definition table).eval leaf = _
  rw [Compilation.predicate, Sql.Predicate.eval_all, List.map_append, Truth.conj_append,
    Compilation.conj_eval_rootParts, Compilation.conj_leaf_allMemberships, Definition.meaning]

end Segmentation
