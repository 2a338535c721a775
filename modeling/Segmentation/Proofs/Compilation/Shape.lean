import Segmentation.Proofs.Compilation.Meaning
import Segmentation.Proofs.Sql.Template

/-!
# Shapes

The shape of a definition is what is left when its operands and segments are
forgotten: which fields are compared by which operators, which operands are given,
how groups are nested, and where memberships stand.  The template of a compiled
definition is a matter of the shape, but for the segments that are added once and
written twice.  The main statement is that two definitions of one shape, which repeat
their segments at the same places, have the same statement and as many parameters.
-/

namespace Segmentation

/-! ### Conditions and groups -/

namespace Condition

/-- An operand of which only is known whether it is given. -/
def operandShape (operand : Option String) : Option String :=
  (present operand).map fun _ => "given"

theorem isSome_present_operandShape (operand : Option String) :
    (present (operandShape operand)).isSome = (present operand).isSome := by
  rw [operandShape]
  cases present operand <;> rfl

def shape (condition : Condition) : Condition :=
  { condition with
    value := operandShape condition.value
    upper := operandShape condition.upper }

theorem isActive_shape (condition : Condition) :
    condition.shape.isActive = condition.isActive := by
  have hvalue := isSome_present_operandShape condition.value
  have hupper := isSome_present_operandShape condition.upper
  simp only [isActive, presentValue, presentUpper, shape, hvalue, hupper]

end Condition

namespace Node

mutual

def shape : Node → Node
  | .condition c => .condition c.shape
  | .group connective children => .group connective (shapes children)
  | .membership _ mode => .membership default mode

def shapes : List Node → List Node
  | [] => []
  | node :: rest => node.shape :: shapes rest

end

mutual

theorem isActive_shape : ∀ node : Node, node.shape.isActive = node.isActive
  | .condition c => c.isActive_shape
  | .group _ children => anyActive_shapes children
  | .membership _ _ => rfl

theorem anyActive_shapes : ∀ nodes : List Node, anyActive (shapes nodes) = anyActive nodes
  | [] => rfl
  | node :: rest => by
      rw [shapes, anyActive, anyActive, isActive_shape node, anyActive_shapes rest]

end

mutual

theorem modes_memberships_shape : ∀ node : Node,
    node.shape.memberships.map Prod.snd = node.memberships.map Prod.snd
  | .condition _ => rfl
  | .group _ children => modes_allMemberships_shapes children
  | .membership _ _ => rfl

theorem modes_allMemberships_shapes : ∀ nodes : List Node,
    (allMemberships (shapes nodes)).map Prod.snd = (allMemberships nodes).map Prod.snd
  | [] => rfl
  | node :: rest => by
      rw [shapes, allMemberships, allMemberships, List.map_append, List.map_append,
        modes_memberships_shape node, modes_allMemberships_shapes rest]

end

end Node

namespace Group

def shape (group : Group) : Group :=
  { group with children := Node.shapes group.children }

theorem hasActive_shape (group : Group) : group.shape.hasActive = group.hasActive :=
  Node.anyActive_shapes group.children

end Group

/-! ### Definitions -/

namespace Definition

/-- A definition of which the operands and the segments are forgotten, and the texts that
are no part of what it selects. -/
def shape (definition : Definition) : Definition where
  name := ""
  connective := definition.connective
  conditions := definition.conditions.map Condition.shape
  groups := definition.groups.map Group.shape
  memberships :=
    { inclusions := definition.memberships.inclusions.map fun _ => default
      exclusions := definition.memberships.exclusions.map fun _ => default }

/-- Two memberships of one mode are of one segment in both definitions or in neither. -/
def RepeatsAlike (left right : Definition) : Prop :=
  ∀ first ∈ left.writtenMemberships.zip right.writtenMemberships,
    ∀ second ∈ left.writtenMemberships.zip right.writtenMemberships,
      first.1.2 = second.1.2 → (first.1.1.id = second.1.1.id ↔ first.2.1.id = second.2.1.id)

instance (left right : Definition) : Decidable (RepeatsAlike left right) :=
  inferInstanceAs (Decidable (∀ first ∈ left.writtenMemberships.zip right.writtenMemberships,
    ∀ second ∈ left.writtenMemberships.zip right.writtenMemberships,
      first.1.2 = second.1.2 → (first.1.1.id = second.1.1.id ↔ first.2.1.id = second.2.1.id)))

theorem modes_groupMemberships_shape (definition : Definition) :
    definition.shape.groupMemberships.map Prod.snd =
      definition.groupMemberships.map Prod.snd := by
  unfold groupMemberships shape
  rw [List.flatMap_map, List.map_flatMap, List.map_flatMap]
  congr 1
  funext group
  exact Node.modes_allMemberships_shapes group.children

/-! ### Memberships of one place -/

/-- Segments that stand at the same place in two definitions, in the same mode. -/
def Counterparts (left right : Definition) (mode : MembershipMode)
    (segment counterpart : SegmentRef) : Prop :=
  ((segment, mode), (counterpart, mode)) ∈ left.writtenMemberships.zip right.writtenMemberships

theorem repeatAlike_counterparts {left right : Definition} (h : left.RepeatsAlike right) :
    Memberships.RepeatAlike (Counterparts left right) := by
  intro mode segment counterpart other otherCounterpart hsegment hother
  exact h _ hsegment _ hother rfl

section

variable {left right : Definition} (hshape : left.shape = right.shape)

include hshape

theorem length_inclusions_eq :
    left.memberships.inclusions.length = right.memberships.inclusions.length := by
  have h := congrArg (fun definition => definition.memberships.inclusions.length) hshape
  simpa only [shape, List.length_map] using h

theorem length_exclusions_eq :
    left.memberships.exclusions.length = right.memberships.exclusions.length := by
  have h := congrArg (fun definition => definition.memberships.exclusions.length) hshape
  simpa only [shape, List.length_map] using h

theorem modes_groupMemberships_eq :
    left.groupMemberships.map Prod.snd = right.groupMemberships.map Prod.snd := by
  rw [← left.modes_groupMemberships_shape, hshape, right.modes_groupMemberships_shape]

theorem zip_writtenMemberships :
    left.writtenMemberships.zip right.writtenMemberships =
      (left.memberships.inclusions.zip right.memberships.inclusions).map
          (Prod.map (·, .incl) (·, .incl)) ++
        (left.memberships.exclusions.zip right.memberships.exclusions).map
          (Prod.map (·, .excl) (·, .excl)) ++
        left.groupMemberships.zip right.groupMemberships := by
  have hinclusions := length_inclusions_eq hshape
  have hexclusions := length_exclusions_eq hshape
  rw [writtenMemberships, writtenMemberships, filterMap_nodes, filterMap_nodes,
    Memberships.toList, Memberships.toList, List.zip_append (by simp [hinclusions, hexclusions]), List.zip_append (by simp [hinclusions]),
    List.zip_map, List.zip_map]

theorem areAlike_counterparts :
    Memberships.AreAlike (Counterparts left right) left.memberships right.memberships := by
  intro mode
  cases mode with
  | incl =>
      refine List.forall₂_iff_zip.2 ⟨length_inclusions_eq hshape, ?_⟩
      intro segment counterpart hmem
      rw [Counterparts]
      rw [zip_writtenMemberships hshape]
      apply List.mem_append_left
      apply List.mem_append_left
      exact List.mem_map_of_mem hmem
  | excl =>
      refine List.forall₂_iff_zip.2 ⟨length_exclusions_eq hshape, ?_⟩
      intro segment counterpart hmem
      rw [Counterparts]
      rw [zip_writtenMemberships hshape]
      apply List.mem_append_left
      apply List.mem_append_right
      exact List.mem_map_of_mem hmem

theorem forall₂_groupMemberships :
    List.Forall₂ (fun entry counterpart =>
      entry.2 = counterpart.2 ∧ Counterparts left right entry.2 entry.1 counterpart.1)
      left.groupMemberships right.groupMemberships := by
  have hmodes : List.Forall₂ Eq (left.groupMemberships.map Prod.snd)
      (right.groupMemberships.map Prod.snd) := by
    rw [List.forall₂_eq_eq_eq]
    exact modes_groupMemberships_eq hshape
  rw [List.forall₂_map_left_iff, List.forall₂_map_right_iff] at hmodes
  refine List.forall₂_iff_zip.2 ⟨hmodes.length_eq, ?_⟩
  rintro ⟨segment, mode⟩ ⟨counterpart, other⟩ hmem
  obtain rfl : mode = other := List.forall₂_zip hmodes hmem
  refine ⟨rfl, ?_⟩
  rw [Counterparts]
  rw [zip_writtenMemberships hshape]
  exact List.mem_append_right _ hmem

/-- Definitions that repeat their segments alike test as many memberships of either mode. -/
theorem modes_allMemberships_eq (hrepeats : left.RepeatsAlike right) :
    left.allMemberships.toList.map Prod.snd = right.allMemberships.toList.map Prod.snd := by
  have hsets := areAlike_counterparts hshape
  have hentries := forall₂_groupMemberships hshape
  exact (hsets.foldl_add (repeatAlike_counterparts hrepeats) hentries).modes_eq

end

end Definition

namespace Compilation

open Sql.Predicate (template)

variable (dataset : Dataset)

/-! ### Templates of clauses -/

theorem template_conditionPredicate_shape (condition : Condition) :
    (conditionPredicate dataset condition.shape).template =
      (conditionPredicate dataset condition).template := by
  obtain ⟨field, operator, value, upper⟩ := condition
  cases operator <;> simp only [conditionPredicate, Condition.shape, template]

theorem template_join (connective : Connective) (parts : List Sql.Predicate) :
    (join connective parts).template = join connective (parts.map template) := by
  cases connective with
  | all => exact Sql.Predicate.template_all parts
  | any => exact Sql.Predicate.template_any parts

mutual

theorem template_nodePredicate?_shape : ∀ node : Node,
    (nodePredicate? dataset node.shape).map template =
      (nodePredicate? dataset node).map template
  | .condition c => by
      rw [Node.shape, nodePredicate?, nodePredicate?, c.isActive_shape]
      split
      · rw [Option.map_some, Option.map_some, template_conditionPredicate_shape]
      · rfl
  | .group connective children => by
      rw [Node.shape, nodePredicate?, nodePredicate?, Node.anyActive_shapes]
      split
      · rw [Option.map_some, Option.map_some, template_join, template_join,
          template_nodePredicates_shapes children]
      · rfl
  | .membership _ _ => rfl

theorem template_nodePredicates_shapes : ∀ nodes : List Node,
    (nodePredicates dataset (Node.shapes nodes)).map template =
      (nodePredicates dataset nodes).map template
  | [] => rfl
  | node :: rest => by
      rw [Node.shapes, nodePredicates, nodePredicates, List.map_append, List.map_append,
        ← Option.toList_map, ← Option.toList_map, template_nodePredicate?_shape node,
        template_nodePredicates_shapes rest]

end

theorem template_groupPredicate_shape (group : Group) :
    (groupPredicate dataset group.shape).template =
      (groupPredicate dataset group).template := by
  rw [groupPredicate, groupPredicate, template_join, template_join]
  exact congrArg (join group.connective) (template_nodePredicates_shapes dataset group.children)

/-- Parts are selected, and have templates, by their shapes. -/
theorem map_filter_of_shape {Part : Type} {shape : Part → Part} {selected : Part → Bool}
    (toTemplate : Part → Sql.Predicate) (hselected : ∀ part, selected (shape part) = selected part)
    (htemplate : ∀ part, toTemplate (shape part) = toTemplate part) (parts : List Part) :
    ((parts.map shape).filter selected).map toTemplate =
      (parts.filter selected).map toTemplate := by
  induction parts with
  | nil => rfl
  | cons part rest ih =>
      rw [List.map_cons, List.filter_cons, List.filter_cons, hselected part]
      split
      · rw [List.map_cons, List.map_cons, htemplate part, ih]
      · exact ih

theorem template_clauses_shape (definition : Definition) :
    (clauses dataset definition.shape).map template =
      (clauses dataset definition).map template := by
  have hconditions := map_filter_of_shape (fun condition =>
    (conditionPredicate dataset condition).template) Condition.isActive_shape
    (template_conditionPredicate_shape dataset) definition.conditions
  have hgroups := map_filter_of_shape (fun group =>
    (groupPredicate dataset group).template) Group.hasActive_shape
    (template_groupPredicate_shape dataset) definition.groups
  simp only [clauses, List.map_append, List.map_map, Function.comp_def,
    Definition.activeConditions, Definition.activeGroups]
  exact congr (congrArg _ hconditions) hgroups

theorem template_rootParts_shape (definition : Definition) :
    (rootParts dataset definition.shape).map template =
      (rootParts dataset definition).map template := by
  have hclauses := template_clauses_shape dataset definition
  have hconnective : definition.shape.connective = definition.connective := rfl
  unfold rootParts
  rw [hconnective]
  cases definition.connective with
  | all => exact hclauses
  | any =>
      simp only [List.map_cons, List.map_nil]
      rw [Sql.Predicate.template_any, Sql.Predicate.template_any, hclauses]

/-! ### Templates of memberships -/

theorem template_memberPredicates (table : MembershipTable)
    (entries : List (SegmentRef × MembershipMode)) :
    (entries.map (memberPredicate dataset table)).map template =
      (entries.map Prod.snd).map fun mode =>
        (memberPredicate dataset table (default, mode)).template := by
  rw [List.map_map, List.map_map]
  apply List.map_congr_left
  intro entry _
  rfl

theorem template_predicate {left right : Definition} (hshape : left.shape = right.shape)
    (hrepeats : left.RepeatsAlike right) (table : MembershipTable) :
    (predicate dataset left table).template = (predicate dataset right table).template := by
  have hroot : (rootParts dataset left).map template = (rootParts dataset right).map template := by
    rw [← template_rootParts_shape, hshape, template_rootParts_shape]
  rw [predicate, predicate, Sql.Predicate.template_all, Sql.Predicate.template_all,
    List.map_append, List.map_append, hroot, template_memberPredicates,
    template_memberPredicates, Definition.modes_allMemberships_eq hshape hrepeats]

end Compilation

/-- Values never reach the text: definitions of one shape that repeat their segments alike
have the same statement and limit, and as many parameters. -/
theorem Definition.sql_toQuery_eq_of_shape_eq {left right : Definition}
    (hshape : left.shape = right.shape) (hrepeats : left.RepeatsAlike right)
    (dataset : Dataset) (settings : Settings) (cap : Sql.RowCap) :
    (left.toQuery dataset settings cap).sql = (right.toQuery dataset settings cap).sql ∧
    (left.toQuery dataset settings cap).limit = (right.toQuery dataset settings cap).limit ∧
    (left.toQuery dataset settings cap).params.length =
      (right.toQuery dataset settings cap).params.length := by
  have htemplate : (left.toPlan dataset settings.membership cap).template =
      (right.toPlan dataset settings.membership cap).template := by
    have hpredicate :=
      Compilation.template_predicate dataset hshape hrepeats settings.membership
    simp only [Sql.Plan.template, toPlan, hpredicate]
  refine ⟨?_, rfl, ?_⟩
  · rw [toQuery, toQuery, ← Sql.Plan.sql_toQuery_template, htemplate,
      Sql.Plan.sql_toQuery_template]
  · rw [toQuery, toQuery, ← Sql.Plan.length_params_toQuery_template, htemplate,
      Sql.Plan.length_params_toQuery_template]

/-- A definition of plain values, which mentions one segment twice. -/
def Definition.plain : Definition where
  name := "plain"
  connective := .any
  conditions :=
    [⟨"age", .between, some "18", some "65"⟩, ⟨"note", .contains, some "x", none⟩,
      ⟨"note", .equals, some "", none⟩]
  groups :=
    [{ connective := .any
       children :=
        [.membership ⟨"s1", "One", 3⟩ .incl,
          .group .all [.condition ⟨"city", .notEquals, some "Lima", none⟩,
            .membership ⟨"s2", "Two", 0⟩ .excl]] }]
  memberships := { inclusions := [⟨"s1", "One", 3⟩], exclusions := [⟨"s1", "One", 3⟩] }

/-- The same with values that look like statements. -/
def Definition.hostile : Definition where
  name := "'; DROP TABLE members; --"
  connective := .any
  conditions :=
    [⟨"age", .between, some "18 OR 1=1", some "1e999"⟩, ⟨"note", .contains, some "%' --", some ""⟩,
      ⟨"note", .equals, none, none⟩]
  groups :=
    [{ connective := .any
       children :=
        [.membership ⟨"') OR (1=1", "$1", 7⟩ .incl,
          .group .all [.condition ⟨"city", .notEquals, some "\" = \"", none⟩,
            .membership ⟨"?", "'", 0⟩ .excl]] }]
  memberships := { inclusions := [⟨"') OR (1=1", "", 0⟩], exclusions := [⟨"$2", "", 1⟩] }

theorem Definition.sql_toQuery_plain_eq_hostile :
    plain.shape = hostile.shape ∧ plain.RepeatsAlike hostile ∧
    (plain.toQuery { name := "Guests", attributes := [⟨"age", .number⟩] } {} .preview).sql =
      (hostile.toQuery { name := "Guests", attributes := [⟨"age", .number⟩] } {} .preview).sql ∧
    (plain.toQuery { name := "Guests", attributes := [⟨"age", .number⟩] } {} .preview).limit =
      (hostile.toQuery { name := "Guests", attributes := [⟨"age", .number⟩] } {} .preview).limit ∧
    (plain.toQuery { name := "Guests", attributes := [⟨"age", .number⟩] } {}
        .preview).params.length =
      (hostile.toQuery { name := "Guests", attributes := [⟨"age", .number⟩] } {}
        .preview).params.length := by
  have hshape : plain.shape = hostile.shape := by decide
  have hrepeats : plain.RepeatsAlike hostile := by decide
  exact ⟨hshape, hrepeats, sql_toQuery_eq_of_shape_eq hshape hrepeats _ _ _⟩

end Segmentation
