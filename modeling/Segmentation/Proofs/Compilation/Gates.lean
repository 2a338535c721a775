import Segmentation.Proofs.Compilation.Leaves

/-!
# Memberships as gates

Wherever a membership is written, it is a condition of its own at the root of the
compiled predicate.  The segments of each mode are those of the definition followed by
those in its groups, in the order in which they are written and without repetitions.
Nothing else in the predicate asks for members, and a definition whose groups hold no
membership, because all of them were added to its sets, has the same plan.
-/

namespace Segmentation

/-! ## Members in predicates -/

namespace Sql.Predicate

def isMember : Predicate → Bool
  | member .. => true
  | _ => false

/-- The memberships in a predicate at any depth, from left to right. -/
def members (predicate : Predicate) : List Predicate :=
  predicate.leaves.filter isMember

/-- The parts that a predicate asks for at its root. -/
def conjuncts : Predicate → List Predicate
  | and parts => parts
  | predicate => [predicate]

theorem members_eq_nil_of_mem {parts : List Predicate} (h : parts.flatMap members = [])
    {part : Predicate} (hpart : part ∈ parts) : part.members = [] := by
  rw [List.flatMap_eq_nil_iff] at h
  exact h part hpart

theorem members_and (parts : List Predicate) : (and parts).members = parts.flatMap members := by
  rw [members, leaves_and, List.filter_flatMap]
  rfl

theorem members_of_mem_conjuncts {predicate part : Predicate} (h : predicate.members = [])
    (hpart : part ∈ predicate.conjuncts) : part.members = [] := by
  unfold conjuncts at hpart
  split at hpart
  · next parts =>
      rw [members_and] at h
      exact members_eq_nil_of_mem h hpart
  · rw [List.mem_singleton.1 hpart]
    exact h

/-- A conjunction has at its root what its parts have there, if each part is a membership or
has none in it. -/
theorem isMember_or_of_mem_conjuncts_all {parts : List Predicate}
    (h : ∀ part ∈ parts, part.isMember ∨ part.members = []) :
    ∀ part ∈ (all parts).conjuncts, part.isMember ∨ part.members = [] := by
  have hkept : ∀ part ∈ parts.filter fun part => !part.isAlways,
      part.isMember ∨ part.members = [] := by
    intro part hpart
    exact h part (List.mem_filter.1 hpart).1
  rw [all]
  generalize parts.filter (fun part => !part.isAlways) = kept at hkept
  cases kept with
  | nil =>
      intro part hpart
      rw [List.mem_singleton.1 hpart]
      exact .inr rfl
  | cons only rest =>
      cases rest with
      | nil =>
          intro part hpart
          change part ∈ only.conjuncts at hpart
          obtain hmember | hnone := hkept only (List.mem_singleton_self only)
          · cases only with
            | member key lookup negated =>
                rw [List.mem_singleton.1 hpart]
                exact .inl rfl
            | _ => contradiction
          · exact .inr (members_of_mem_conjuncts hnone hpart)
      | cons second rest => exact hkept

end Sql.Predicate

/-! ## Memberships in groups -/

namespace Node

mutual

/-- What is left of a node when the memberships in it are deleted. -/
def withoutMemberships : Node → List Node
  | .condition c => [.condition c]
  | .group connective children => [.group connective (allWithoutMemberships children)]
  | .membership _ _ => []

def allWithoutMemberships : List Node → List Node
  | [] => []
  | node :: rest => node.withoutMemberships ++ allWithoutMemberships rest

end

mutual

theorem allMemberships_withoutMemberships : ∀ node : Node,
    allMemberships node.withoutMemberships = []
  | .condition _ => rfl
  | .group _ children => by
      rw [withoutMemberships, allMemberships, memberships,
        allMemberships_allWithoutMemberships children]
      rfl
  | .membership _ _ => rfl

theorem allMemberships_allWithoutMemberships : ∀ nodes : List Node,
    allMemberships (allWithoutMemberships nodes) = []
  | [] => rfl
  | node :: rest => by
      have hnode := allMemberships_withoutMemberships node
      have hrest := allMemberships_allWithoutMemberships rest
      rw [allMemberships_eq_flatMap] at hnode hrest ⊢
      rw [allWithoutMemberships, List.flatMap_append, hnode, hrest]
      rfl

end

mutual

theorem anyActive_withoutMemberships : ∀ node : Node,
    anyActive node.withoutMemberships = node.isActive
  | .condition c => by
      rw [withoutMemberships, anyActive, anyActive, isActive, Bool.or_false]
  | .group _ children => by
      rw [withoutMemberships, anyActive, anyActive, isActive, isActive, Bool.or_false,
        anyActive_allWithoutMemberships children]
  | .membership _ _ => rfl

theorem anyActive_allWithoutMemberships : ∀ nodes : List Node,
    anyActive (allWithoutMemberships nodes) = anyActive nodes
  | [] => rfl
  | node :: rest => by
      have hnode := anyActive_withoutMemberships node
      have hrest := anyActive_allWithoutMemberships rest
      rw [anyActive_eq_any] at hnode hrest
      rw [allWithoutMemberships, anyActive_eq_any, List.any_append, hnode, hrest, anyActive]

end

end Node

namespace Compilation

variable (dataset : Dataset)

theorem nodePredicates_append (nodes others : List Node) :
    nodePredicates dataset (nodes ++ others) =
      nodePredicates dataset nodes ++ nodePredicates dataset others := by
  induction nodes with
  | nil => rfl
  | cons node rest ih =>
      rw [List.cons_append, nodePredicates, nodePredicates, ih, List.append_assoc]

mutual

/-- Memberships have no part in the predicate of a group. -/
theorem nodePredicates_withoutMemberships : ∀ node : Node,
    nodePredicates dataset node.withoutMemberships = (nodePredicate? dataset node).toList
  | .condition c => by
      rw [Node.withoutMemberships, nodePredicates, nodePredicates, List.append_nil]
  | .group connective children => by
      rw [Node.withoutMemberships, nodePredicates, nodePredicates, List.append_nil, nodePredicate?,
        nodePredicate?, Node.anyActive_allWithoutMemberships,
        nodePredicates_allWithoutMemberships children]
  | .membership _ _ => rfl

theorem nodePredicates_allWithoutMemberships : ∀ nodes : List Node,
    nodePredicates dataset (Node.allWithoutMemberships nodes) = nodePredicates dataset nodes
  | [] => rfl
  | node :: rest => by
      rw [Node.allWithoutMemberships, nodePredicates_append, nodePredicates,
        nodePredicates_withoutMemberships node, nodePredicates_allWithoutMemberships rest]

end

end Compilation

def Group.withoutMemberships (group : Group) : Group :=
  { group with children := Node.allWithoutMemberships group.children }

/-! ## Gates of definitions -/

namespace Definition

/-- The segments that are asked for in one mode: those of the definition, and those of the
memberships in its groups whose identifier does not occur earlier in that mode. -/
def gates (definition : Definition) (mode : MembershipMode) : List SegmentRef :=
  definition.memberships.get mode ++
    Memberships.newcomers ((definition.memberships.get mode).map SegmentRef.id)
      (Memberships.ofMode mode (definition.nodes.filterMap Node.membership?))

/-- The definition with the memberships in its groups added to its sets instead. -/
def hoisted (definition : Definition) : Definition :=
  { definition with
    groups := definition.groups.map Group.withoutMemberships
    memberships := (definition.nodes.filterMap Node.membership?).foldl
      (fun memberships (segment, mode) => (memberships.add segment mode).1)
      definition.memberships }

/-- The sets that compilation reads hold the gates. -/
theorem get_allMemberships (definition : Definition) (mode : MembershipMode) :
    definition.allMemberships.get mode = definition.gates mode := by
  rw [allMemberships, Memberships.get_foldl_add, gates, filterMap_nodes]

theorem toList_allMemberships (definition : Definition) :
    definition.allMemberships.toList =
      (definition.gates .incl).map (·, .incl) ++ (definition.gates .excl).map (·, .excl) := by
  rw [← get_allMemberships, ← get_allMemberships]
  rfl

theorem groupMemberships_hoisted (definition : Definition) :
    definition.hoisted.groupMemberships = [] := by
  rw [groupMemberships, hoisted, List.flatMap_map, List.flatMap_eq_nil_iff]
  intro group _
  exact Node.allMemberships_allWithoutMemberships group.children

theorem allMemberships_hoisted (definition : Definition) :
    definition.hoisted.allMemberships = definition.allMemberships := by
  rw [allMemberships, groupMemberships_hoisted, hoisted, filterMap_nodes]
  rfl

end Definition

namespace Compilation

open Sql.Predicate (leaves isMember)

variable (dataset : Dataset)

/-! ## Gates of compiled predicates -/

theorem isMember_conditionPredicate (condition : Condition) :
    (conditionPredicate dataset condition).isMember = false := by
  unfold conditionPredicate
  cases condition.operator <;> rfl

theorem filter_isMember_conditionPredicates (conditions : List Condition) :
    (conditions.map (conditionPredicate dataset)).filter isMember = [] := by
  rw [List.filter_eq_nil_iff]
  intro part hpart
  obtain ⟨condition, _, rfl⟩ := List.mem_map.1 hpart
  rw [isMember_conditionPredicate]
  exact Bool.false_ne_true

theorem filter_isMember_memberPredicates (table : MembershipTable)
    (entries : List (SegmentRef × MembershipMode)) :
    (entries.map (memberPredicate dataset table)).filter isMember =
      entries.map (memberPredicate dataset table) := by
  rw [List.filter_eq_self]
  intro part hpart
  obtain ⟨entry, _, rfl⟩ := List.mem_map.1 hpart
  rfl

theorem members_predicate (definition : Definition) (table : MembershipTable) :
    (predicate dataset definition table).members =
      definition.allMemberships.toList.map (memberPredicate dataset table) := by
  rw [Sql.Predicate.members, leaves_predicate, List.filter_append,
    filter_isMember_conditionPredicates, filter_isMember_memberPredicates, List.nil_append]

/-- The memberships in a compiled predicate are tests for the gates. -/
theorem members_predicate_eq (definition : Definition) (table : MembershipTable) :
    (predicate dataset definition table).members =
      (definition.gates .incl).map
          (fun segment => .member dataset.keyColumn (table.lookup segment) false) ++
        (definition.gates .excl).map
          (fun segment => .member dataset.keyColumn (table.lookup segment) true) := by
  rw [members_predicate, funext (memberPredicate_eq_test dataset table),
    Definition.toList_allMemberships, List.map_append, List.map_map, List.map_map]
  rfl

/-- The clauses of a definition ask for no members, however they are joined. -/
theorem members_rootParts (definition : Definition) :
    ∀ part ∈ rootParts dataset definition, part.members = [] := by
  have hleaves : ((rootParts dataset definition).flatMap leaves).filter isMember = [] := by
    rw [leaves_rootParts, filter_isMember_conditionPredicates]
  rw [List.filter_flatMap] at hleaves
  intro part hpart
  exact Sql.Predicate.members_eq_nil_of_mem hleaves hpart

theorem isMember_or_of_mem_conjuncts (definition : Definition) (table : MembershipTable) :
    ∀ part ∈ (predicate dataset definition table).conjuncts,
      part.isMember ∨ part.members = [] := by
  apply Sql.Predicate.isMember_or_of_mem_conjuncts_all
  intro part hpart
  obtain hroot | hmember := List.mem_append.1 hpart
  · exact .inr (members_rootParts dataset definition part hroot)
  · obtain ⟨entry, _, rfl⟩ := List.mem_map.1 hmember
    exact .inl rfl

theorem clauses_hoisted (definition : Definition) :
    clauses dataset definition.hoisted = clauses dataset definition := by
  have hgroups : Node.allWithoutMemberships (definition.groups.map Group.toNode) =
      definition.hoisted.groups.map Group.toNode := by
    rw [Definition.hoisted, List.map_map]
    induction definition.groups with
    | nil => rfl
    | cons group rest ih =>
        rw [List.map_cons, Node.allWithoutMemberships, ih]
        rfl
  rw [clauses_eq, clauses_eq, ← hgroups, nodePredicates_allWithoutMemberships]
  rfl

theorem predicate_hoisted (definition : Definition) (table : MembershipTable) :
    predicate dataset definition.hoisted table = predicate dataset definition table := by
  have hroot : rootParts dataset definition.hoisted = rootParts dataset definition := by
    rw [rootParts, rootParts, clauses_hoisted]
    rfl
  rw [predicate, predicate, hroot, Definition.allMemberships_hoisted]

end Compilation

/-- The memberships in a compiled predicate are the gates of its definition, inclusions
first: the key of a record has to be listed for the one and must not be listed for the other.
Each of them is the whole predicate or stands directly under a conjunction at the
root, and nothing beside them asks for members.  Moving the memberships out of the groups
into the sets of the definition leaves none in the groups and does not change the plan. -/
theorem Definition.members_toPlan (definition : Definition) (dataset : Dataset)
    (table : MembershipTable) (cap : Sql.RowCap) :
    (definition.toPlan dataset table cap).predicate.members =
      (definition.gates .incl).map
          (fun segment => .member dataset.keyColumn
            { table := table.table
              segmentColumn := table.segmentColumn
              keyColumn := table.keyColumn
              segmentId := segment.id } false) ++
        (definition.gates .excl).map
          (fun segment => .member dataset.keyColumn
            { table := table.table
              segmentColumn := table.segmentColumn
              keyColumn := table.keyColumn
              segmentId := segment.id } true) ∧
    (∀ part ∈ (definition.toPlan dataset table cap).predicate.conjuncts,
      part.isMember ∨ part.members = []) ∧
    definition.hoisted.nodes.filterMap Node.membership? = [] ∧
    definition.hoisted.toPlan dataset table cap = definition.toPlan dataset table cap := by
  refine ⟨Compilation.members_predicate_eq dataset definition table,
    Compilation.isMember_or_of_mem_conjuncts dataset definition table, ?_, ?_⟩
  · rw [filterMap_nodes, groupMemberships_hoisted]
  · rw [toPlan, toPlan, Compilation.predicate_hoisted]

end Segmentation
