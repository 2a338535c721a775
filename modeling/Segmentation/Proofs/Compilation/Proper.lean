import Segmentation.Proofs.Compilation.Leaves
import Segmentation.Proofs.Sql.Literal

/-!
# Proper predicates

The predicates that compilation gives, as a grammar.  A condition becomes a test of a
named column against operands that are there and fit the type of the column, and a join
has two parts or more, each of them proper.  The test that always holds is no proper
part: it is only ever the whole predicate.
-/

namespace Segmentation

namespace Compilation

/-- What a column is compared with: a text that is not empty, or a number that can be
written, the latter only for a column of numbers. -/
inductive Fits (dataset : Dataset) (column : String) : Sql.Value → Prop
  | text {content : String} (h : content ≠ "") : Fits dataset column (.text content)
  | int (value : Int) (h : dataset.typeOf column = .number) : Fits dataset column (.int value)
  | float (value : Double) (h : dataset.typeOf column = .number) :
      Fits dataset column (.float value)
  | numeric {digits : String} (h : dataset.typeOf column = .number)
      (hplain : Numeral.IsPlain digits.toList) : Fits dataset column (.numeric digits)

/-- A predicate in which no test is empty and no join is trivial, at any depth. -/
inductive Proper (dataset : Dataset) : Sql.Predicate → Prop
  | compare {column : String} (comparison : Sql.Comparison) {value : Sql.Value}
      (hcolumn : column ≠ "") (hvalue : Fits dataset column value) :
      Proper dataset (.compare column comparison value)
  | like {column pattern : String} (negated : Bool) (hcolumn : column ≠ "")
      (hpattern : ∃ c ∈ pattern.toList, c ≠ '%') : Proper dataset (.like column pattern negated)
  | between {column : String} {low high : Sql.Value} (hcolumn : column ≠ "")
      (hlow : Fits dataset column low) (hhigh : Fits dataset column high) :
      Proper dataset (.between column low high)
  | isNull {column : String} (negated : Bool) (hcolumn : column ≠ "") :
      Proper dataset (.isNull column negated)
  | member (key : String) (lookup : Sql.MemberLookup) (negated : Bool) :
      Proper dataset (.member key lookup negated)
  | and {parts : List Sql.Predicate} (hlength : 2 ≤ parts.length)
      (hparts : ∀ part ∈ parts, Proper dataset part) : Proper dataset (.and parts)
  | or {parts : List Sql.Predicate} (hlength : 2 ≤ parts.length)
      (hparts : ∀ part ∈ parts, Proper dataset part) : Proper dataset (.or parts)

variable {dataset : Dataset}

theorem Proper.isAlways_eq_false {predicate : Sql.Predicate} (h : Proper dataset predicate) :
    predicate.isAlways = false := by
  cases h <;> rfl

/-! ## Conditions -/

theorem fits_typedValue {column raw : String} (h : raw ≠ "") :
    Fits dataset column (typedValue (dataset.typeOf column) raw) := by
  rw [typedValue]
  split
  · next hnumeric =>
      have hnumber : dataset.typeOf column = .number := by
        cases htype : dataset.typeOf column with
        | number => rfl
        | _ =>
            rw [htype] at hnumeric
            contradiction
      have hplain := Sql.Value.wellFormed_ofTyped raw
      cases hvalue : Sql.Value.ofTyped raw with
      | int value => exact .int value hnumber
      | float value => exact .float value hnumber
      | numeric digits =>
          rw [hvalue] at hplain
          exact .numeric hnumber hplain
      | text content =>
          rw [Sql.Value.eq_of_ofTyped_eq_text hvalue]
          exact .text h
  · exact .text h

/-- A pattern holds a character of the value that is not `%`, or the escape in front of one
that is. -/
theorem exists_ne_percent_likePattern (openStart openEnd : Bool) {raw : String} (h : raw ≠ "") :
    ∃ c ∈ (likePattern openStart openEnd raw).toList, c ≠ '%' := by
  obtain ⟨first, rest, hraw⟩ := List.exists_cons_of_ne_nil (mt String.toList_eq_nil_iff.1 h)
  have hescaped : ∃ c ∈ escapePattern raw.toList, c ≠ '%' := by
    rw [hraw, escapePattern, List.flatMap_cons]
    split
    · exact ⟨'\\', List.mem_append_left _ List.mem_cons_self, by decide⟩
    · next hplain =>
        refine ⟨first, List.mem_append_left _ List.mem_cons_self, ?_⟩
        rintro rfl
        exact hplain (.inr (.inl rfl))
  obtain ⟨c, hc, hne⟩ := hescaped
  refine ⟨c, ?_, hne⟩
  rw [likePattern, String.toList_ofList]
  exact List.mem_append_left _ (List.mem_append_right _ hc)

theorem ne_empty_of_isSome_present {operand : Option String}
    (h : (Condition.present operand).isSome) : (Condition.present operand).getD "" ≠ "" := by
  unfold Condition.present at h ⊢
  split at h
  · contradiction
  · next text =>
      split at h
      · contradiction
      · next hfull =>
          rw [if_neg hfull, Option.getD_some]
          intro hempty
          rw [hempty] at hfull
          exact hfull rfl

/-- What an active condition has: a field, and the operands that its operator takes. -/
theorem operands_of_isActive {condition : Condition} (h : condition.isActive) :
    condition.field ≠ "" ∧
    (condition.operator.needsValue → condition.presentValue.getD "" ≠ "") ∧
    (condition.operator.needsUpper → condition.presentUpper.getD "" ≠ "") := by
  rw [Condition.isActive, Bool.and_eq_true, Bool.and_eq_true] at h
  obtain ⟨⟨hfield, hvalue⟩, hupper⟩ := h
  refine ⟨?_, ?_, ?_⟩
  · rintro hempty
    rw [hempty] at hfield
    contradiction
  · intro hneeds
    rw [hneeds] at hvalue
    exact ne_empty_of_isSome_present hvalue
  · intro hneeds
    rw [hneeds] at hupper
    exact ne_empty_of_isSome_present hupper

theorem proper_conditionPredicate {condition : Condition} (h : condition.isActive) :
    Proper dataset (conditionPredicate dataset condition) := by
  obtain ⟨hfield, hvalue, hupper⟩ := operands_of_isActive h
  unfold conditionPredicate
  cases hoperator : condition.operator <;> rw [hoperator] at hvalue hupper
  case equals | notEquals | greaterThan | lessThan =>
      exact .compare _ hfield (fits_typedValue (hvalue rfl))
  case contains | notContains | startsWith | endsWith =>
      exact .like _ hfield (exists_ne_percent_likePattern _ _ (hvalue rfl))
  case isNull | isNotNull => exact .isNull _ hfield
  case between =>
      exact .between hfield (fits_typedValue (hvalue rfl)) (fits_typedValue (hupper rfl))

/-! ## Joins -/

theorem proper_collapse {join : List Sql.Predicate → Sql.Predicate} {parts : List Sql.Predicate}
    (hjoin : 2 ≤ parts.length → Proper dataset (join parts)) (hne : parts ≠ [])
    (h : ∀ part ∈ parts, Proper dataset part) :
    Proper dataset (Sql.Predicate.collapse join parts) := by
  match parts with
  | [] => exact absurd rfl hne
  | [part] => exact h part (List.mem_singleton_self part)
  | first :: second :: rest => exact hjoin (Nat.le_add_left 2 rest.length)

/-- Parts that are proper or hold in any case have a proper conjunction, or one that holds in
any case. -/
theorem proper_all {parts : List Sql.Predicate}
    (h : ∀ part ∈ parts, part = .always ∨ Proper dataset part) :
    Sql.Predicate.all parts = .always ∨ Proper dataset (Sql.Predicate.all parts) := by
  have hkept : ∀ part ∈ parts.filter fun part => !part.isAlways, Proper dataset part := by
    intro part hpart
    obtain ⟨hmem, hother⟩ := List.mem_filter.1 hpart
    obtain rfl | hproper := h part hmem
    · contradiction
    · exact hproper
  rw [Sql.Predicate.all]
  generalize parts.filter (fun part => !part.isAlways) = kept at hkept
  by_cases hnil : kept = []
  · left
    rw [hnil]
    rfl
  · right
    exact proper_collapse (fun hlength => .and hlength hkept) hnil hkept

theorem proper_join (connective : Connective) {parts : List Sql.Predicate} (hne : parts ≠ [])
    (h : ∀ part ∈ parts, Proper dataset part) : Proper dataset (join connective parts) := by
  have hnever : ∀ part ∈ parts, part.isAlways = false := fun part hpart =>
    (h part hpart).isAlways_eq_false
  cases connective with
  | all =>
      obtain halways | hproper := proper_all fun part hpart => .inr (h part hpart)
      · have hcontrary := Sql.Predicate.isAlways_all hne hnever
        rw [halways] at hcontrary
        contradiction
      · exact hproper
  | any =>
      rw [join, Sql.Predicate.any_eq_collapse hnever]
      exact proper_collapse (fun hlength => .or hlength h) hne h

/-! ## Groups -/

mutual

theorem proper_nodePredicate? : ∀ node : Node, ∀ part ∈ nodePredicate? dataset node,
    Proper dataset part
  | .condition c, part, hpart => by
      obtain ⟨hactive, hsome⟩ := Option.ite_none_right_eq_some.1 hpart
      cases hsome
      exact proper_conditionPredicate hactive
  | .group connective children, part, hpart => by
      obtain ⟨hactive, hsome⟩ := Option.ite_none_right_eq_some.1 hpart
      cases hsome
      apply proper_join connective
      · rw [Ne, nodePredicates_eq_nil_iff, hactive]
        exact nofun
      · exact proper_nodePredicates children
  | .membership _ _, _, hpart => by contradiction

theorem proper_nodePredicates : ∀ nodes : List Node, ∀ part ∈ nodePredicates dataset nodes,
    Proper dataset part
  | [], _, hpart => by contradiction
  | node :: rest, part, hpart => by
      obtain hnode | hrest := List.mem_append.1 hpart
      · exact proper_nodePredicate? node part (Option.mem_toList.1 hnode)
      · exact proper_nodePredicates rest part hrest

end

/-! ## Definitions -/

theorem proper_clauses (dataset : Dataset) (definition : Definition) :
    ∀ part ∈ clauses dataset definition, Proper dataset part := by
  intro part hpart
  rw [clauses_eq] at hpart
  obtain hcondition | hgroup := List.mem_append.1 hpart
  · obtain ⟨condition, hactive, rfl⟩ := List.mem_map.1 hcondition
    exact proper_conditionPredicate (List.mem_filter.1 hactive).2
  · exact proper_nodePredicates _ part hgroup

/-- Only a disjunction of no clauses holds in any case. -/
theorem proper_rootParts (definition : Definition) :
    ∀ part ∈ rootParts dataset definition, part = .always ∨ Proper dataset part := by
  intro part hpart
  have hclauses := proper_clauses dataset definition
  unfold rootParts at hpart
  cases hconnective : definition.connective with
  | all =>
      rw [hconnective] at hpart
      exact .inr (hclauses part hpart)
  | any =>
      rw [hconnective] at hpart
      rw [List.mem_singleton.1 hpart]
      by_cases hnil : clauses dataset definition = []
      · left
        rw [hnil]
        rfl
      · right
        exact proper_join .any hnil hclauses

end Compilation

/-- The predicate of a plan is proper, unless it is the one that always holds. -/
theorem Definition.proper_toPlan (definition : Definition) (dataset : Dataset)
    (table : MembershipTable) (cap : Sql.RowCap) :
    (definition.toPlan dataset table cap).predicate = .always ∨
      Compilation.Proper dataset (definition.toPlan dataset table cap).predicate := by
  change Compilation.predicate dataset definition table = .always ∨
    Compilation.Proper dataset (Compilation.predicate dataset definition table)
  rw [Compilation.predicate]
  apply Compilation.proper_all
  intro part hpart
  obtain hroot | hmember := List.mem_append.1 hpart
  · exact Compilation.proper_rootParts definition part hroot
  · obtain ⟨entry, _, rfl⟩ := List.mem_map.1 hmember
    exact .inr (.member _ _ _)

end Segmentation
