import Segmentation.Proofs.Compilation.Gates
import Segmentation.Proofs.Sql.Inline

/-!
# Parameters of compiled queries

An active condition binds the operands of its operator: none for a null test, a pattern
for a test of text, two values for a range and one for a comparison.  The main statement
is that the parameters of a query are those of the active conditions, in the order in
which they are written, and then the identifiers of the segments that are asked for, in
the order of the tests in the compiled predicate.
-/

namespace Segmentation

namespace Condition

/-- The values that an active condition binds, in order. -/
def bindings (dataset : Dataset) (condition : Condition) : List Sql.Value :=
  match condition.operator with
  | .isNull | .isNotNull => []
  | .contains | .notContains => [.text (condition.pattern true true)]
  | .startsWith => [.text (condition.pattern false true)]
  | .endsWith => [.text (condition.pattern true false)]
  | .between =>
    [condition.typedOperand dataset condition.value, condition.typedOperand dataset condition.upper]
  | .equals | .notEquals | .greaterThan | .lessThan =>
    [condition.typedOperand dataset condition.value]

/-- A leaf of a predicate that is the test which a condition stands for: it names the field of
the condition and binds its operands. -/
structure IsTestedBy (dataset : Dataset) (condition : Condition) (leaf : Sql.Predicate) :
    Prop where
  test : leaf = condition.test dataset
  names : leaf.names = [condition.field]
  values : leaf.values = condition.bindings dataset

end Condition

namespace Compilation

open Sql.Predicate (leaves isMember)

variable (dataset : Dataset)

theorem isTestedBy_conditionPredicate (condition : Condition) :
    condition.IsTestedBy dataset (conditionPredicate dataset condition) where
  test := conditionPredicate_eq_test dataset condition
  names := by
    unfold conditionPredicate
    cases condition.operator <;> rfl
  values := by
    rw [conditionPredicate_eq_test, Condition.test, Condition.bindings]
    cases condition.operator <;> rfl

/-- The leaves that ask for no members are those of the active conditions. -/
theorem attributes_predicate (definition : Definition) (table : MembershipTable) :
    ((predicate dataset definition table).leaves.filter fun leaf => !leaf.isMember) =
      (definition.allConditions.filter Condition.isActive).map (conditionPredicate dataset) := by
  rw [leaves_predicate, List.filter_append]
  have hconditions : ((definition.allConditions.filter Condition.isActive).map
      (conditionPredicate dataset)).filter (fun leaf => !leaf.isMember) =
        (definition.allConditions.filter Condition.isActive).map (conditionPredicate dataset) := by
    rw [List.filter_eq_self]
    intro leaf hleaf
    obtain ⟨condition, _, rfl⟩ := List.mem_map.1 hleaf
    rw [isMember_conditionPredicate]
    rfl
  have hmembers : (definition.allMemberships.toList.map (memberPredicate dataset table)).filter
      (fun leaf => !leaf.isMember) = [] := by
    rw [List.filter_eq_nil_iff]
    intro leaf hleaf
    obtain ⟨entry, _, rfl⟩ := List.mem_map.1 hleaf
    exact Bool.false_ne_true
  rw [hconditions, hmembers, List.append_nil]

theorem values_conditionPredicates (conditions : List Condition) :
    (conditions.map (conditionPredicate dataset)).flatMap Sql.Predicate.values =
      conditions.flatMap (Condition.bindings dataset) := by
  rw [List.flatMap_map]
  congr 1
  funext condition
  exact (isTestedBy_conditionPredicate dataset condition).values

theorem values_memberPredicates (table : MembershipTable) (segments : List SegmentRef)
    (mode : MembershipMode) :
    ((segments.map (·, mode)).map (memberPredicate dataset table)).flatMap Sql.Predicate.values =
      segments.map fun segment => .text segment.id := by
  rw [List.map_map, List.flatMap_map, List.map_eq_flatMap]
  rfl

end Compilation

/-- The leaves of a compiled predicate test the active conditions, in the order in which they are
written, and ask for the gates, inclusions first.  The parameters of the query are the operands of
the one, and then the identifiers of the others. -/
theorem Definition.params_toQuery (definition : Definition) (dataset : Dataset)
    (settings : Settings) (cap : Sql.RowCap) :
    List.Forall₂ (Condition.IsTestedBy dataset)
      (definition.allConditions.filter Condition.isActive)
      ((definition.toPlan dataset settings.membership cap).predicate.leaves.filter
        fun leaf => !leaf.isMember) ∧
    (definition.toPlan dataset settings.membership cap).predicate.members =
      (definition.gates .incl).map
          (fun segment => .member dataset.keyColumn (settings.membership.lookup segment) false) ++
        (definition.gates .excl).map
          (fun segment => .member dataset.keyColumn (settings.membership.lookup segment) true) ∧
    (definition.toQuery dataset settings cap).params =
      (definition.allConditions.filter Condition.isActive).flatMap (Condition.bindings dataset) ++
        (definition.gates .incl).map (fun segment => .text segment.id) ++
        (definition.gates .excl).map (fun segment => .text segment.id) := by
  refine ⟨?_, Compilation.members_predicate_eq dataset definition settings.membership, ?_⟩
  · rw [toPlan, Compilation.attributes_predicate, List.forall₂_map_right_iff, List.forall₂_same]
    intro condition _
    exact Compilation.isTestedBy_conditionPredicate dataset condition
  · calc
      (definition.toQuery dataset settings cap).params =
          (Compilation.predicate dataset definition settings.membership).leaves.flatMap
            Sql.Predicate.values := Sql.Plan.parameters_pieces _
      _ = _ := by
        rw [Compilation.leaves_predicate, toList_allMemberships, List.map_append,
          List.flatMap_append, List.flatMap_append, Compilation.values_conditionPredicates,
          Compilation.values_memberPredicates, Compilation.values_memberPredicates,
          List.append_assoc]

end Segmentation
