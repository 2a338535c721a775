import Segmentation.Proofs.Definition
import Segmentation.Proofs.Language.Meaning
import Segmentation.Proofs.Language.Written

/-!
# What is written is well shaped

Written statements denote definitions in which every condition has the operands of its
operator, since the grammar has a form for each number of operands, and no identifier is
twice in a set, since only the first segment with it counts.
-/

namespace Segmentation.Language

open Written

variable {text rest : List Char}

theorem hasOperands_of_where {condition : Condition} (h : Where text condition rest) :
    condition.HasOperands := by
  obtain ⟨_, _, _, hoperands⟩ := h
  obtain ⟨field, op, value, upper⟩ := condition
  rw [Condition.hasOperands_iff]
  cases hoperands with
  | none hvalue => exact ⟨hvalue.symm, (Operator.needsUpper_eq_false hvalue).symm⟩
  | value hvalue hupper _ => exact ⟨hvalue.symm, hupper.symm⟩
  | range hupper _ _ _ =>
      exact ⟨(Operator.needsValue_of_needsUpper hupper).symm, hupper.symm⟩

theorem hasOperands_of_children {nodes : List Node} (h : Children text nodes rest) :
    ∀ condition ∈ Node.allConditions nodes, condition.HasOperands := by
  induction h with
  | nil => nofun
  | condition hfirst _ ih =>
      obtain ⟨_, _, hwhere⟩ := hfirst
      rw [Node.allConditions, Node.conditions, List.singleton_append, List.forall_mem_cons]
      exact ⟨hasOperands_of_where hwhere, ih⟩
  | group _ _ _ _ ihchildren ihrest =>
      rw [Node.allConditions, Node.conditions, List.forall_mem_append]
      exact ⟨ihchildren, ihrest⟩
  | membership _ _ ih =>
      rw [Node.allConditions, Node.conditions, List.nil_append]
      exact ih

/-- The conditions that a statement adds. -/
def Statement.conditions : Statement → List Condition
  | .condition c => [c]
  | .group g => Node.allConditions g.children
  | _ => []

theorem hasOperands_of_statement {statement : Statement}
    (h : Written.Statement text statement rest) :
    ∀ condition ∈ statement.conditions, condition.HasOperands := by
  cases h with
  | condition h =>
      rw [Statement.conditions, List.forall_mem_singleton]
      exact hasOperands_of_where h
  | group h =>
      obtain ⟨_, hchildren, _⟩ := h
      exact hasOperands_of_children hchildren
  | _ => nofun

theorem hasOperands_of_statements {statements : List Statement}
    (h : Statements text statements rest) :
    ∀ statement ∈ statements, ∀ condition ∈ statement.conditions, condition.HasOperands := by
  induction h with
  | nil => nofun
  | cons hfirst _ ih =>
      obtain ⟨_, _, hstatement⟩ := hfirst
      rw [List.forall_mem_cons]
      exact ⟨hasOperands_of_statement hstatement, ih⟩

/-- The conditions of what statements denote are those of the statements. -/
theorem mem_allConditions_denote_iff {name : String} {statements : List Statement}
    {condition : Condition} :
    condition ∈ (denote name statements).allConditions ↔
      ∃ statement ∈ statements, condition ∈ statement.conditions := by
  rw [Definition.allConditions, List.mem_append]
  constructor
  · rintro (h | h)
    · obtain ⟨statement, hmem, hpart⟩ := List.mem_filterMap.1 h
      obtain rfl := Statement.condition?_eq_some_iff.1 hpart
      exact ⟨.condition condition, hmem, List.mem_singleton_self condition⟩
    · obtain ⟨group, hgroup, hcondition⟩ := List.mem_flatMap.1 h
      obtain ⟨statement, hmem, hpart⟩ := List.mem_filterMap.1 hgroup
      obtain rfl := Statement.group?_eq_some_iff.1 hpart
      exact ⟨.group group, hmem, hcondition⟩
  · rintro ⟨statement, hmem, hcondition⟩
    cases statement with
    | condition c =>
        obtain rfl := List.mem_singleton.1 hcondition
        exact .inl (List.mem_filterMap.2 ⟨_, hmem, rfl⟩)
    | group g =>
        exact .inr (List.mem_flatMap.2 ⟨g, List.mem_filterMap.2 ⟨_, hmem, rfl⟩, hcondition⟩)
    | _ => contradiction

theorem isWellShaped_denote {name : String} {statements : List Statement}
    (h : Statements text statements rest) : (denote name statements).IsWellShaped where
  operands := by
    intro condition hmem
    obtain ⟨statement, hstatement, hcondition⟩ := mem_allConditions_denote_iff.1 hmem
    exact hasOperands_of_statements h statement hstatement condition hcondition
  inclusions := nodup_firstOfEach _
  exclusions := nodup_firstOfEach _

end Segmentation.Language
