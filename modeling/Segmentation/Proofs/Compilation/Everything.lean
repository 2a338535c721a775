import Mathlib.Tactic.TFAE
import Segmentation.Proofs.Compilation.Leaves
import Segmentation.Proofs.Sql.InlinePredicate

/-!
# Definitions that match everything

A definition matches everything when no condition in it is active, at any depth, and no
membership is written in it.  The main statement is that compilation agrees: just then
the compiled predicate is the one that always holds, and just then the inline predicate
reads so.
-/

namespace Segmentation

theorem Memberships.isEmpty_iff_toList {memberships : Memberships} :
    memberships.isEmpty ↔ memberships.toList = [] := by
  simp [isEmpty, toList]

theorem Group.hasActive_eq_false_iff {group : Group} :
    group.hasActive = false ↔
      (Node.allConditions group.children).filter Condition.isActive = [] := by
  rw [hasActive, Node.anyActive_eq_any_conditions, List.any_eq_false, List.filter_eq_nil_iff]

namespace Definition

variable (definition : Definition)

/-- No condition and no group is active exactly if no condition at any depth is. -/
theorem filter_isActive_eq_nil_iff :
    definition.allConditions.filter Condition.isActive = [] ↔
      definition.activeConditions = [] ∧ definition.activeGroups = [] := by
  have hgroups : (definition.groups.flatMap fun group =>
      Node.allConditions group.children).filter Condition.isActive = [] ↔
        definition.activeGroups = [] := by
    rw [List.filter_flatMap, List.flatMap_eq_nil_iff, activeGroups, List.filter_eq_nil_iff]
    simp only [Bool.not_eq_true, Group.hasActive_eq_false_iff]
  rw [allConditions, List.filter_append, List.append_eq_nil_iff, hgroups, activeConditions]

/-- No membership is tested exactly if none is written. -/
theorem toList_allMemberships_eq_nil_iff :
    definition.allMemberships.toList = [] ↔
      definition.memberships.isEmpty ∧ definition.groupMemberships = [] := by
  have hnil : ∀ entries, entries = [] ↔ ∀ key, key ∉ Memberships.keys entries := by
    intro entries
    rw [← List.eq_nil_iff_forall_not_mem, Memberships.keys, List.map_eq_nil_iff]
  rw [Memberships.isEmpty_iff_toList, ← List.append_eq_nil_iff, hnil, hnil]
  apply forall_congr'
  intro key
  exact not_congr (Memberships.mem_keys_foldl_add _ _ key)

theorem matchesEverything_iff :
    definition.matchesEverything ↔
      definition.allConditions.filter Condition.isActive = [] ∧
        definition.allMemberships.toList = [] := by
  rw [filter_isActive_eq_nil_iff, toList_allMemberships_eq_nil_iff, matchesEverything,
    Bool.and_eq_true, Bool.and_eq_true, Bool.and_eq_true, List.isEmpty_iff, List.isEmpty_iff,
    List.isEmpty_iff]
  simp only [and_assoc]

end Definition

namespace Compilation

variable (dataset : Dataset) (table : MembershipTable)

/-- Compilation leaves nothing to test exactly if the definition matches everything. -/
theorem leaves_predicate_eq_nil_iff (definition : Definition) :
    (predicate dataset definition table).leaves = [] ↔ definition.matchesEverything := by
  rw [leaves_predicate, List.append_eq_nil_iff, List.map_eq_nil_iff, List.map_eq_nil_iff,
    Definition.matchesEverything_iff]

theorem predicate_eq_always {definition : Definition} (h : definition.matchesEverything) :
    predicate dataset definition table = .always := by
  obtain ⟨hconditions, hmemberships⟩ := definition.matchesEverything_iff.1 h
  obtain ⟨hconditions, hgroups⟩ := definition.filter_isActive_eq_nil_iff.1 hconditions
  have hclauses : clauses dataset definition = [] := by
    rw [clauses, hconditions, hgroups]
    rfl
  -- A disjunction of no clauses is one part, which the conjunction around it drops.
  rw [predicate, rootParts, hclauses, hmemberships]
  cases definition.connective <;> rfl

end Compilation

/-- A definition matches everything exactly if its compiled predicate is the one that always
holds, and exactly if its inline predicate reads `1=1`. -/
theorem Definition.matchesEverything_tfae (definition : Definition) (dataset : Dataset)
    (table : MembershipTable) (cap : Sql.RowCap) (dialect : Sql.Dialect) :
    [definition.matchesEverything = true,
      (definition.toPlan dataset table cap).predicate = .always,
      ((definition.toPlan dataset table cap).toQuery dialect).inlinePredicate = "1=1"].TFAE := by
  rw [Sql.Plan.inlinePredicate_toQuery]
  tfae_have 1 → 2 := Compilation.predicate_eq_always dataset table
  tfae_have 2 → 3 := by
    intro halways
    rw [Sql.Plan.predicatePieces, halways]
    rfl
  tfae_have 3 → 1 := by
    intro hwritten
    have hleaves := Sql.Predicate.leaves_eq_nil_of_inlineText_eq hwritten
    exact (Compilation.leaves_predicate_eq_nil_iff dataset table definition).1 hleaves
  tfae_finish

end Segmentation
