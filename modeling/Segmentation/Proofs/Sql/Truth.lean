import Segmentation.Sql.Predicate

/-!
# Truth values of predicates

A comparison with a missing value is neither true nor false, so a predicate has
one of three truth values.  This module evaluates a predicate from the truth
values of its leaves, and shows that the joins `all` and `any`, which leave out
trivial parts, mean the conjunction and the disjunction of what they join.
-/

namespace Segmentation.Sql

inductive Truth
  | no
  | unknown
  | yes
deriving DecidableEq

namespace Truth

/-- Kleene conjunction: the smaller value in the order no, unknown, yes. -/
def and : Truth → Truth → Truth
  | no, _ => no
  | _, no => no
  | unknown, _ => unknown
  | _, unknown => unknown
  | yes, yes => yes

/-- Kleene disjunction: the larger value in the order no, unknown, yes. -/
def or : Truth → Truth → Truth
  | yes, _ => yes
  | _, yes => yes
  | unknown, _ => unknown
  | _, unknown => unknown
  | no, no => no

def conj (values : List Truth) : Truth :=
  values.foldr and yes

def disj (values : List Truth) : Truth :=
  values.foldr or no

@[simp]
theorem conj_nil : conj [] = yes := rfl

@[simp]
theorem conj_cons (value : Truth) (values : List Truth) :
    conj (value :: values) = value.and (conj values) := rfl

@[simp]
theorem disj_nil : disj [] = no := rfl

@[simp]
theorem disj_cons (value : Truth) (values : List Truth) :
    disj (value :: values) = value.or (disj values) := rfl

@[simp]
theorem yes_and (value : Truth) : yes.and value = value := by
  cases value <;> rfl

@[simp]
theorem and_yes (value : Truth) : value.and yes = value := by
  cases value <;> rfl

@[simp]
theorem and_self (value : Truth) : value.and value = value := by
  cases value <;> rfl

theorem and_comm (left right : Truth) : left.and right = right.and left := by
  cases left <;> cases right <;> rfl

theorem and_assoc (first second third : Truth) :
    (first.and second).and third = first.and (second.and third) := by
  cases first <;> cases second <;> cases third <;> rfl

@[simp]
theorem or_no (value : Truth) : value.or no = value := by
  cases value <;> rfl

@[simp]
theorem yes_or (value : Truth) : yes.or value = yes := by
  cases value <;> rfl

@[simp]
theorem or_yes (value : Truth) : value.or yes = yes := by
  cases value <;> rfl

theorem conj_append (left right : List Truth) :
    conj (left ++ right) = (conj left).and (conj right) := by
  induction left with
  | nil => simp
  | cons value left ih => simp [ih, and_assoc]

theorem and_conj_of_mem {value : Truth} {values : List Truth} (hmem : value ∈ values) :
    value.and (conj values) = conj values := by
  induction values with
  | nil => simp at hmem
  | cons head tail ih =>
      rw [conj_cons, ← and_assoc]
      rcases List.mem_cons.mp hmem with hhead | htail
      · rw [hhead, and_self]
      · rw [and_comm value head, and_assoc, ih htail]

theorem conj_and_conj_of_subset {smaller larger : List Truth} (hsubset : smaller ⊆ larger) :
    (conj smaller).and (conj larger) = conj larger := by
  induction smaller with
  | nil => simp
  | cons value rest ih =>
      have hrest : rest ⊆ larger := fun _ hmem => hsubset (List.mem_cons_of_mem value hmem)
      have hvalue : value ∈ larger := hsubset (List.mem_cons_self ..)
      rw [conj_cons, and_assoc, ih hrest, and_conj_of_mem hvalue]

/-- A conjunction depends only on which values occur in it. -/
theorem conj_eq_of_mem_iff {left right : List Truth}
    (hmem : ∀ value, value ∈ left ↔ value ∈ right) : conj left = conj right := by
  have hleft := conj_and_conj_of_subset fun value => (hmem value).mp
  have hright := conj_and_conj_of_subset fun value => (hmem value).mpr
  rw [← hright, and_comm, hleft]

theorem disj_eq_yes_of_mem {values : List Truth} (hmem : yes ∈ values) : disj values = yes := by
  induction values with
  | nil => simp at hmem
  | cons head tail ih =>
      rcases List.mem_cons.mp hmem with hhead | htail
      · rw [disj_cons, ← hhead, yes_or]
      · rw [disj_cons, ih htail, or_yes]

end Truth

/-! ## Evaluation -/

namespace Predicate

mutual

/-- The truth value of a predicate whose leaves have the values that `leaf` gives them. -/
def eval (leaf : Predicate → Truth) : Predicate → Truth
  | .always => .yes
  | .compare column comparison value => leaf (.compare column comparison value)
  | .like column pattern negated => leaf (.like column pattern negated)
  | .between column low high => leaf (.between column low high)
  | .isNull column negated => leaf (.isNull column negated)
  | .member key lookup negated => leaf (.member key lookup negated)
  | .and parts => Truth.conj (evalParts leaf parts)
  | .or parts => Truth.disj (evalParts leaf parts)

def evalParts (leaf : Predicate → Truth) : List Predicate → List Truth
  | [] => []
  | part :: rest => part.eval leaf :: evalParts leaf rest

end

variable (leaf : Predicate → Truth)

theorem evalParts_eq_map (parts : List Predicate) : evalParts leaf parts = parts.map (eval leaf) := by
  induction parts with
  | nil => rfl
  | cons part rest ih => simp [evalParts, ih]

theorem eval_of_isAlways {predicate : Predicate} (h : predicate.isAlways) :
    predicate.eval leaf = .yes := by
  cases predicate <;> simp_all [isAlways, eval]

theorem eval_collapse_and (parts : List Predicate) :
    (collapse and parts).eval leaf = Truth.conj (parts.map (eval leaf)) := by
  match parts with
  | [] => simp [collapse, eval]
  | [part] => simp [collapse]
  | first :: second :: rest => simp [collapse, eval, evalParts_eq_map]

theorem eval_collapse_or {parts : List Predicate} (hparts : parts ≠ []) :
    (collapse or parts).eval leaf = Truth.disj (parts.map (eval leaf)) := by
  match parts with
  | [] => exact absurd rfl hparts
  | [part] => simp [collapse]
  | first :: second :: rest => simp [collapse, eval, evalParts_eq_map]

theorem conj_filter_not_isAlways (parts : List Predicate) :
    Truth.conj ((parts.filter fun part => !part.isAlways).map (eval leaf)) =
      Truth.conj (parts.map (eval leaf)) := by
  induction parts with
  | nil => rfl
  | cons part rest ih =>
      by_cases halways : part.isAlways
      · simp [halways, ih, eval_of_isAlways leaf halways]
      · simp [halways, ih]

/-- A join by `all` means the conjunction of its parts. -/
theorem eval_all (parts : List Predicate) :
    (all parts).eval leaf = Truth.conj (parts.map (eval leaf)) := by
  rw [all, eval_collapse_and, conj_filter_not_isAlways]

/-- A join by `any` of at least one part means the disjunction of its parts. -/
theorem eval_any {parts : List Predicate} (hparts : parts ≠ []) :
    (any parts).eval leaf = Truth.disj (parts.map (eval leaf)) := by
  rw [any]
  split
  · next htrivial =>
      obtain ⟨part, hmem, halways⟩ := List.any_eq_true.mp htrivial
      have hyes : Truth.yes ∈ parts.map (eval leaf) :=
        List.mem_map.mpr ⟨part, hmem, eval_of_isAlways leaf halways⟩
      rw [Truth.disj_eq_yes_of_mem hyes, eval]
  · exact eval_collapse_or leaf hparts

end Predicate

end Segmentation.Sql
