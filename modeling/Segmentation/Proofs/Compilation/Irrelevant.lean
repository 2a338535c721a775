import Mathlib.Logic.Relation
import Segmentation.Proofs.Compilation.Gates

/-!
# Irrelevant parts of definitions

A condition that is not active, a group that has neither an active condition nor a
membership in it, an operand that the operator of its condition does not read, the texts
of a definition and what its segments are called are irrelevant.  An adjustment changes
one of them, at any depth.  The main statement is that definitions which differ by any
number of adjustments, made or undone, have the same query.
-/

namespace Segmentation

/-! ## Adjustments -/

/-- Conditions that differ at most in operands that their operator ignores. -/
structure Condition.ReadsAs (left right : Condition) : Prop where
  field : left.field = right.field
  operator : left.operator = right.operator
  value : left.operator ≠ .isNull → left.operator ≠ .isNotNull → left.value = right.value
  upper : left.operator = .between → left.upper = right.upper

/-- One adjustment among the children of a group, or of a definition. -/
inductive Node.Adjusts : List Node → List Node → Prop
  | condition (before after : List Node) {condition : Condition}
      (hinactive : condition.isActive = false) :
      Adjusts (before ++ after) (before ++ .condition condition :: after)
  | group (before after : List Node) (connective : Connective) {children : List Node}
      (hconditions : ∀ condition ∈ Node.allConditions children, condition.isActive = false)
      (hmemberships : Node.allMemberships children = []) :
      Adjusts (before ++ after) (before ++ .group connective children :: after)
  | operands (before after : List Node) {condition changed : Condition}
      (hreads : condition.ReadsAs changed) :
      Adjusts (before ++ .condition condition :: after) (before ++ .condition changed :: after)
  | segment (before after : List Node) {segment renamed : SegmentRef} (mode : MembershipMode)
      (hid : segment.id = renamed.id) :
      Adjusts (before ++ .membership segment mode :: after)
        (before ++ .membership renamed mode :: after)
  | inside (before after : List Node) (connective : Connective) {children adjusted : List Node}
      (hadjusts : Adjusts children adjusted) :
      Adjusts (before ++ .group connective children :: after)
        (before ++ .group connective adjusted :: after)

namespace Definition

/-- The conditions and the groups that the root connective joins. -/
def children (definition : Definition) : List Node :=
  definition.conditions.map .condition ++ definition.groups.map Group.toNode

/-- One adjustment of a definition. -/
inductive Adjusts : Definition → Definition → Prop
  | texts (definition : Definition) (name description : String) (dataset : Option String) :
      Adjusts definition
        { definition with name := name, description := description, dataset := dataset }
  | segments (definition : Definition) {memberships : Memberships}
      (hids : Memberships.AreAlike (fun _ segment renamed => segment.id = renamed.id)
        definition.memberships memberships) :
      Adjusts definition { definition with memberships := memberships }
  | children (definition : Definition) {conditions : List Condition} {groups : List Group}
      (hadjusts : Node.Adjusts definition.children
        { definition with conditions := conditions, groups := groups }.children) :
      Adjusts definition { definition with conditions := conditions, groups := groups }

end Definition

/-! ## Segments by their identifiers -/

namespace Memberships

theorem repeatAlike_id : RepeatAlike fun _ segment renamed => segment.id = renamed.id := by
  intro _ left right other counterpart hleft hother
  rw [hleft, hother]

theorem forall₂_of_keys_eq {lefts rights : List (SegmentRef × MembershipMode)}
    (h : keys lefts = keys rights) :
    List.Forall₂ (fun entry counterpart => entry.2 = counterpart.2 ∧
      entry.1.id = counterpart.1.id) lefts rights := by
  rw [keys, keys, ← List.forall₂_eq_eq_eq, List.forall₂_map_left_iff,
    List.forall₂_map_right_iff] at h
  refine h.imp ?_
  intro entry counterpart hkey
  obtain ⟨hid, hmode⟩ := Prod.mk.inj hkey
  exact ⟨hmode, hid⟩

theorem AreAlike.keys_eq {left right : Memberships}
    (h : AreAlike (fun _ segment renamed => segment.id = renamed.id) left right) :
    keys left.toList = keys right.toList := by
  have hids : ∀ mode, (left.get mode).map SegmentRef.id = (right.get mode).map SegmentRef.id := by
    intro mode
    rw [← List.forall₂_eq_eq_eq, List.forall₂_map_left_iff, List.forall₂_map_right_iff]
    exact h mode
  have hkeys : ∀ memberships : Memberships, keys memberships.toList =
      ((memberships.get .incl).map SegmentRef.id).map (·, .incl) ++
        ((memberships.get .excl).map SegmentRef.id).map (·, .excl) := by
    intro memberships
    rw [keys, toList, List.map_append, List.map_map, List.map_map, List.map_map, List.map_map]
    rfl
  rw [hkeys, hkeys, hids, hids]

end Memberships

namespace Node

theorem allMemberships_append (nodes others : List Node) :
    allMemberships (nodes ++ others) = allMemberships nodes ++ allMemberships others := by
  rw [allMemberships_eq_flatMap, allMemberships_eq_flatMap, allMemberships_eq_flatMap,
    List.flatMap_append]

theorem allMemberships_remove (before after : List Node) {node : Node}
    (h : node.memberships = []) :
    allMemberships (before ++ node :: after) = allMemberships (before ++ after) := by
  rw [allMemberships_append, allMemberships_append, allMemberships, h, List.nil_append]

theorem keys_allMemberships_replace (before after : List Node) {node other : Node}
    (h : Memberships.keys node.memberships = Memberships.keys other.memberships) :
    Memberships.keys (allMemberships (before ++ node :: after)) =
      Memberships.keys (allMemberships (before ++ other :: after)) := by
  unfold Memberships.keys at h ⊢
  rw [allMemberships_append, allMemberships_append, allMemberships, allMemberships,
    List.map_append, List.map_append, List.map_append, List.map_append, h]

/-- An adjustment leaves the identifiers and the modes of the memberships. -/
theorem Adjusts.keys_eq {nodes adjusted : List Node} (h : Adjusts nodes adjusted) :
    Memberships.keys (allMemberships nodes) = Memberships.keys (allMemberships adjusted) := by
  induction h with
  | condition before after _ => rw [allMemberships_remove before after rfl]
  | @group before after connective children _ hmemberships =>
      have hnone : (Node.group connective children).memberships = [] := hmemberships
      rw [allMemberships_remove before after hnone]
  | operands before after _ => exact keys_allMemberships_replace before after rfl
  | segment before after mode hid =>
      apply keys_allMemberships_replace
      simp only [memberships, Memberships.keys, List.map_cons, hid, List.map_nil]
  | inside before after _ _ ih => exact keys_allMemberships_replace before after ih

end Node

/-! ## Adjusted nodes -/

namespace Condition.ReadsAs

variable {left right : Condition}

theorem value_eq (h : left.ReadsAs right) (hneeds : left.operator.needsValue) :
    left.value = right.value := by
  obtain ⟨hnull, hnotNull⟩ := Operator.needsValue_iff.1 hneeds
  exact h.value hnull hnotNull

theorem upper_eq (h : left.ReadsAs right) (hneeds : left.operator.needsUpper) :
    left.upper = right.upper :=
  h.upper (Operator.needsUpper_iff.1 hneeds)

theorem isActive_eq (h : left.ReadsAs right) : left.isActive = right.isActive := by
  rw [isActive, isActive, presentValue, presentValue, presentUpper, presentUpper, ← h.field,
    ← h.operator]
  cases hvalue : left.operator.needsValue with
  | false =>
      rw [Operator.needsUpper_eq_false hvalue]
      rfl
  | true =>
      rw [h.value_eq hvalue]
      cases hupper : left.operator.needsUpper with
      | false => rfl
      | true => rw [h.upper_eq hupper]

end Condition.ReadsAs

namespace Compilation

variable (dataset : Dataset)

theorem conditionPredicate_eq_of_readsAs {left right : Condition} (h : left.ReadsAs right) :
    conditionPredicate dataset left = conditionPredicate dataset right := by
  have hvalue := h.value_eq
  have hupper := h.upper_eq
  unfold conditionPredicate Condition.presentValue Condition.presentUpper
  rw [← h.field, ← h.operator]
  generalize left.operator = operator at hvalue hupper
  cases operator with
  | isNull | isNotNull => rfl
  | between => rw [hvalue rfl, hupper rfl]
  | _ => rw [hvalue rfl]

theorem nodePredicates_remove (before after : List Node) {node : Node}
    (h : nodePredicate? dataset node = none) :
    nodePredicates dataset (before ++ node :: after) =
      nodePredicates dataset (before ++ after) := by
  rw [nodePredicates_append, nodePredicates_append, nodePredicates, h]
  rfl

theorem nodePredicates_replace (before after : List Node) {node other : Node}
    (h : nodePredicate? dataset node = nodePredicate? dataset other) :
    nodePredicates dataset (before ++ node :: after) =
      nodePredicates dataset (before ++ other :: after) := by
  rw [nodePredicates_append, nodePredicates_append, nodePredicates, nodePredicates, h]

theorem nodePredicate?_group_eq (connective : Connective) {children adjusted : List Node}
    (h : nodePredicates dataset children = nodePredicates dataset adjusted) :
    nodePredicate? dataset (.group connective children) =
      nodePredicate? dataset (.group connective adjusted) := by
  -- Whether a group is active can be read off what its children compile to.
  have hactive : Node.anyActive children = Node.anyActive adjusted := by
    rw [← Bool.not_inj_iff, Bool.eq_iff_iff, Bool.not_eq_true', Bool.not_eq_true',
      ← nodePredicates_eq_nil_iff dataset, ← nodePredicates_eq_nil_iff dataset, h]
  rw [nodePredicate?, nodePredicate?, h, hactive]

/-- An adjustment leaves the predicates of the nodes that take part. -/
theorem nodePredicates_eq_of_adjusts {nodes adjusted : List Node}
    (h : Node.Adjusts nodes adjusted) :
    nodePredicates dataset nodes = nodePredicates dataset adjusted := by
  induction h with
  | condition before after hinactive =>
      symm
      apply nodePredicates_remove
      exact (nodePredicate?_eq_none_iff dataset _).2 hinactive
  | group before after connective hconditions _ =>
      symm
      apply nodePredicates_remove
      rw [nodePredicate?_eq_none_iff, Node.isActive, Node.anyActive_eq_any_conditions,
        List.any_eq_false]
      intro condition hcondition
      rw [hconditions condition hcondition]
      exact Bool.false_ne_true
  | operands before after hreads =>
      apply nodePredicates_replace
      rw [nodePredicate?, nodePredicate?, hreads.isActive_eq,
        conditionPredicate_eq_of_readsAs dataset hreads]
  | segment before after mode _ => exact nodePredicates_replace dataset before after rfl
  | inside before after connective _ ih =>
      apply nodePredicates_replace
      exact nodePredicate?_group_eq dataset connective ih

/-! ## Adjusted definitions -/

theorem map_conditionPredicate_filter (conditions : List Condition) :
    (conditions.filter Condition.isActive).map (conditionPredicate dataset) =
      nodePredicates dataset (conditions.map .condition) := by
  induction conditions with
  | nil => rfl
  | cons condition rest ih =>
      rw [List.map_cons, nodePredicates, nodePredicate?, ← ih]
      by_cases hactive : condition.isActive
      · rw [List.filter_cons_of_pos hactive, if_pos hactive]
        rfl
      · rw [List.filter_cons_of_neg hactive, if_neg hactive]
        rfl

/-- The clauses of a definition are the predicates of the children of its root. -/
theorem clauses_eq_children (definition : Definition) :
    clauses dataset definition = nodePredicates dataset definition.children := by
  rw [clauses_eq, Definition.activeConditions, map_conditionPredicate_filter,
    Definition.children, nodePredicates_append]

theorem memberPredicates_eq_of_keys_eq (table : MembershipTable)
    {lefts rights : List (SegmentRef × MembershipMode)}
    (h : Memberships.keys lefts = Memberships.keys rights) :
    lefts.map (memberPredicate dataset table) = rights.map (memberPredicate dataset table) := by
  have hread : ∀ entries : List (SegmentRef × MembershipMode),
      entries.map (memberPredicate dataset table) = (Memberships.keys entries).map
        fun (id, mode) => memberPredicate dataset table (⟨id, "", 0⟩, mode) := by
    intro entries
    rw [Memberships.keys, List.map_map]
    rfl
  calc
    lefts.map (memberPredicate dataset table) = (Memberships.keys lefts).map _ := hread lefts
    _ = (Memberships.keys rights).map _ := by rw [h]
    _ = rights.map (memberPredicate dataset table) := (hread rights).symm

theorem predicate_eq_of_children {left right : Definition} (table : MembershipTable)
    (hconnective : left.connective = right.connective)
    (hchildren : nodePredicates dataset left.children = nodePredicates dataset right.children)
    (hmemberships : Memberships.keys left.allMemberships.toList =
      Memberships.keys right.allMemberships.toList) :
    predicate dataset left table = predicate dataset right table := by
  rw [predicate, predicate, rootParts, rootParts, clauses_eq_children, clauses_eq_children,
    hchildren, hconnective, memberPredicates_eq_of_keys_eq dataset table hmemberships]

end Compilation

namespace Definition

theorem groupMemberships_eq_children (definition : Definition) :
    definition.groupMemberships = Node.allMemberships definition.children := by
  have hconditions : Node.allMemberships (definition.conditions.map Node.condition) = [] := by
    rw [Node.allMemberships_eq_flatMap, List.flatMap_map, List.flatMap_eq_nil_iff]
    intro condition _
    rfl
  have hgroups : Node.allMemberships (definition.groups.map Group.toNode) =
      definition.groupMemberships := by
    rw [Node.allMemberships_eq_flatMap, List.flatMap_map]
    rfl
  rw [children, Node.allMemberships_append, hconditions, hgroups, List.nil_append]

theorem keys_allMemberships {left right : Definition}
    (hsets : Memberships.AreAlike (fun _ segment renamed => segment.id = renamed.id)
      left.memberships right.memberships)
    (hgroups : Memberships.keys left.groupMemberships =
      Memberships.keys right.groupMemberships) :
    Memberships.keys left.allMemberships.toList =
      Memberships.keys right.allMemberships.toList := by
  apply Memberships.AreAlike.keys_eq
  exact hsets.foldl_add Memberships.repeatAlike_id (Memberships.forall₂_of_keys_eq hgroups)

/-- An adjustment leaves the compiled predicate. -/
theorem Adjusts.predicate_eq {left right : Definition} (h : left.Adjusts right)
    (dataset : Dataset) (table : MembershipTable) :
    Compilation.predicate dataset left table = Compilation.predicate dataset right table := by
  cases h with
  | texts name description selected => rfl
  | segments hids =>
      apply Compilation.predicate_eq_of_children dataset table
      · rfl
      · rfl
      · exact keys_allMemberships hids rfl
  | @children conditions groups hadjusts =>
      apply Compilation.predicate_eq_of_children dataset table
      · rfl
      · exact Compilation.nodePredicates_eq_of_adjusts dataset hadjusts
      · apply keys_allMemberships
        · intro mode
          exact List.forall₂_same.2 fun _ _ => rfl
        · rw [groupMemberships_eq_children, groupMemberships_eq_children]
          exact hadjusts.keys_eq

/-- Irrelevant parts never change the query: definitions which differ by adjustments, made and
undone in any number and at any depth, have the same one. -/
theorem toQuery_eq_of_adjusts {left right : Definition}
    (h : Relation.EqvGen Adjusts left right) (dataset : Dataset) (settings : Settings)
    (cap : Sql.RowCap) :
    left.toQuery dataset settings cap = right.toQuery dataset settings cap := by
  have hpredicate : Compilation.predicate dataset left settings.membership =
      Compilation.predicate dataset right settings.membership := by
    induction h with
    | rel _ _ hadjusts => exact hadjusts.predicate_eq dataset settings.membership
    | refl _ => rfl
    | symm _ _ _ ih => exact ih.symm
    | trans _ _ _ _ _ hfirst hsecond => exact hfirst.trans hsecond
  rw [toQuery, toQuery, toPlan, toPlan, hpredicate]

/-- A definition with a condition that is not yet filled in and an operand that is left over. -/
def draft : Definition where
  name := "draft"
  connective := .any
  conditions := [⟨"city", .equals, some "Hanoi", none⟩, ⟨"email", .isNull, some "@", none⟩]
  groups :=
    [{ connective := .any
       children :=
        [.membership ⟨"vip", "VIP", 1⟩ .incl,
          .group .all [.condition ⟨"age", .between, some "18", none⟩,
            .condition ⟨"tier", .equals, some "gold", none⟩]] }]
  memberships := { exclusions := [⟨"lost", "Lost", 3⟩] }

/-- The same without them, under another name and with its segment renamed. -/
def finished : Definition where
  name := "Locals"
  description := "City or tier"
  dataset := some "customers"
  connective := .any
  conditions := [⟨"city", .equals, some "Hanoi", none⟩, ⟨"email", .isNull, none, none⟩]
  groups :=
    [{ connective := .any
       children :=
        [.membership ⟨"vip", "VIP", 1⟩ .incl,
          .group .all [.condition ⟨"tier", .equals, some "gold", none⟩]] }]
  memberships := { exclusions := [⟨"lost", "Churned", 4⟩] }

theorem toQuery_draft_eq_finished :
    Relation.EqvGen Adjusts draft finished ∧
    draft.toQuery { name := "Guests" } {} .preview =
      finished.toQuery { name := "Guests" } {} .preview := by
  have hoperands : Adjusts draft { draft with conditions := finished.conditions } :=
    .children draft (.operands [.condition ⟨"city", .equals, some "Hanoi", none⟩] _
      ⟨rfl, rfl, fun hnull => (hnull rfl).elim, nofun⟩)
  have hcondition : Adjusts
      { draft with conditions := finished.conditions, groups := finished.groups }
      { draft with conditions := finished.conditions } :=
    .children _ (.inside (finished.conditions.map .condition) [] .any
      (.inside [.membership ⟨"vip", "VIP", 1⟩ .incl] [] .all (.condition [] _ rfl)))
  have hsegments : Adjusts
      { draft with conditions := finished.conditions, groups := finished.groups }
      { finished with name := "draft", description := "", dataset := none } :=
    .segments _ fun mode => by
      cases mode with
      | incl => exact .nil
      | excl => exact .cons rfl .nil
  have htexts : Adjusts finished
      { finished with name := "draft", description := "", dataset := none } := .texts _ _ _ _
  have hadjusts : Relation.EqvGen Adjusts draft finished :=
    .trans _ _ _ (.rel _ _ hoperands) (.trans _ _ _ (.symm _ _ (.rel _ _ hcondition))
      (.trans _ _ _ (.rel _ _ hsegments) (.symm _ _ (.rel _ _ htexts))))
  exact ⟨hadjusts, toQuery_eq_of_adjusts hadjusts _ _ _⟩

end Definition

end Segmentation
