import Segmentation.Sql.Statement

/-!
# Leaves of predicates

The leaves of a predicate are its conditions from left to right, without the joins
around them.  A statement holds the names and binds the values of the leaves, in that
order, and the joins `all` and `any` have the leaves of the parts that they join.
-/

namespace Segmentation.Sql

/-- The name that a piece is. -/
def Piece.name? : Piece → Option String
  | .name text => some text
  | _ => none

namespace Predicate

mutual

/-- The conditions in a predicate, from left to right. -/
def leaves : Predicate → List Predicate
  | .always => []
  | .and parts => allLeaves parts
  | .or parts => allLeaves parts
  | leaf => [leaf]

def allLeaves : List Predicate → List Predicate
  | [] => []
  | part :: rest => part.leaves ++ allLeaves rest

end

theorem allLeaves_eq_flatMap (parts : List Predicate) : allLeaves parts = parts.flatMap leaves := by
  induction parts with
  | nil => rfl
  | cons part rest ih => rw [allLeaves, List.flatMap_cons, ih]

/-! ### Views of leaves -/

/-- Whether a view of pieces sees nothing in fixed text, and `seen` in a leaf. -/
structure Shows {α : Type} (view : Piece → Option α) (seen : Predicate → List α) : Prop where
  fixed : ∀ text, view (.fixed text) = none
  leaf : ∀ predicate nested, predicate.isCompound = false →
    (predicate.pieces nested).filterMap view = seen predicate

namespace Shows

variable {α : Type} {view : Piece → Option α} {seen : Predicate → List α}

theorem filterMap_enclose (h : Shows view seen) (nested : Bool) (pieces : List Piece) :
    (enclose nested pieces).filterMap view = pieces.filterMap view := by
  cases nested with
  | false => rfl
  | true => simp [enclose, h.fixed]

mutual

/-- What is seen in the pieces of a predicate is what is seen in its leaves. -/
theorem filterMap_pieces (h : Shows view seen) : ∀ (nested : Bool) (predicate : Predicate),
    (predicate.pieces nested).filterMap view = predicate.leaves.flatMap seen
  | nested, .and parts => by
      rw [pieces, leaves, h.filterMap_enclose, filterMap_joinedPieces h]
  | nested, .or parts => by
      rw [pieces, leaves, h.filterMap_enclose, filterMap_joinedPieces h]
  | _, .always => by
      rw [pieces, List.filterMap_cons, h.fixed]
      rfl
  | nested, .compare _ _ _ => (h.leaf _ nested rfl).trans (List.append_nil _).symm
  | nested, .like _ _ _ => (h.leaf _ nested rfl).trans (List.append_nil _).symm
  | nested, .between _ _ _ => (h.leaf _ nested rfl).trans (List.append_nil _).symm
  | nested, .isNull _ _ => (h.leaf _ nested rfl).trans (List.append_nil _).symm
  | nested, .member _ _ _ => (h.leaf _ nested rfl).trans (List.append_nil _).symm

theorem filterMap_joinedPieces (h : Shows view seen) :
    ∀ (separator : String) (parts : List Predicate),
      (joinedPieces separator parts).filterMap view = (allLeaves parts).flatMap seen
  | _, [] => rfl
  | _, [part] => by
      rw [joinedPieces, allLeaves, allLeaves, List.append_nil, filterMap_pieces h true part]
  | separator, part :: next :: rest => by
      change _ = (part.leaves ++ allLeaves (next :: rest)).flatMap seen
      rw [joinedPieces, List.filterMap_append, List.filterMap_cons, h.fixed,
        filterMap_pieces h true part, List.flatMap_append]
      · exact congrArg _ (filterMap_joinedPieces h separator (next :: rest))
      · exact List.cons_ne_nil next rest

end

end Shows

/-- The values that a leaf compares with. -/
def values : Predicate → List Value
  | .compare _ _ value => [value]
  | .like _ pattern _ => [.text pattern]
  | .between _ low high => [low, high]
  | .member _ lookup _ => [.text lookup.segmentId]
  | _ => []

theorem shows_values : Shows Piece.value? values where
  fixed _ := rfl
  leaf predicate nested hleaf := by
    cases predicate with
    | and parts => contradiction
    | or parts => contradiction
    | _ => rfl

/-- The names in a leaf, in the order in which they are written. -/
def names : Predicate → List String
  | .compare column _ _ => [column]
  | .like column _ _ => [column]
  | .between column _ _ => [column]
  | .isNull column _ => [column]
  | .member key lookup _ => [key, lookup.keyColumn, lookup.table, lookup.segmentColumn]
  | _ => []

theorem shows_names : Shows Piece.name? names where
  fixed _ := rfl
  leaf predicate nested hleaf := by
    cases predicate with
    | and parts => contradiction
    | or parts => contradiction
    | _ => rfl

/-! ### Leaves of joins -/

theorem leaves_of_isAlways {predicate : Predicate} (h : predicate.isAlways) :
    predicate.leaves = [] := by
  cases predicate with
  | always => rfl
  | _ => contradiction

theorem leaves_collapse {join : List Predicate → Predicate} (parts : List Predicate)
    (hjoin : (join parts).leaves = parts.flatMap leaves) :
    (collapse join parts).leaves = parts.flatMap leaves := by
  match parts with
  | [] => rfl
  | [part] => exact (List.append_nil _).symm
  | first :: second :: rest => exact hjoin

theorem leaves_and (parts : List Predicate) : (and parts).leaves = parts.flatMap leaves := by
  rw [leaves, allLeaves_eq_flatMap]

theorem leaves_or (parts : List Predicate) : (or parts).leaves = parts.flatMap leaves := by
  rw [leaves, allLeaves_eq_flatMap]

theorem leaves_all (parts : List Predicate) : (all parts).leaves = parts.flatMap leaves := by
  rw [all, leaves_collapse _ (leaves_and _)]
  induction parts with
  | nil => rfl
  | cons part rest ih =>
      by_cases halways : part.isAlways
      · simp [halways, ih, leaves_of_isAlways halways]
      · simp [halways, ih]

theorem any_eq_collapse {parts : List Predicate} (h : ∀ part ∈ parts, part.isAlways = false) :
    any parts = collapse or parts := by
  have hnone : parts.any isAlways = false := List.any_eq_false.2 fun part hmem => by
    rw [h part hmem]
    exact Bool.false_ne_true
  rw [any, hnone, if_neg Bool.false_ne_true]

/-- A disjunction keeps the leaves of its parts unless one of them makes it trivial. -/
theorem leaves_any {parts : List Predicate} (h : ∀ part ∈ parts, part.isAlways = false) :
    (any parts).leaves = parts.flatMap leaves := by
  rw [any_eq_collapse h, leaves_collapse _ (leaves_or _)]

/-- A join of parts that are not trivial is not trivial, if there are any. -/
theorem isAlways_collapse {join : List Predicate → Predicate} {parts : List Predicate}
    (hjoin : (join parts).isAlways = false) (hne : parts ≠ [])
    (h : ∀ part ∈ parts, part.isAlways = false) : (collapse join parts).isAlways = false := by
  match parts with
  | [] => exact absurd rfl hne
  | [part] => exact h part (List.mem_singleton_self part)
  | first :: second :: rest => exact hjoin

theorem isAlways_all {parts : List Predicate} (hne : parts ≠ [])
    (h : ∀ part ∈ parts, part.isAlways = false) : (all parts).isAlways = false := by
  have hfilter : parts.filter (fun part => !part.isAlways) = parts :=
    List.filter_eq_self.2 fun part hmem => by rw [h part hmem]; rfl
  rw [all, hfilter]
  exact isAlways_collapse rfl hne h

theorem isAlways_any {parts : List Predicate} (hne : parts ≠ [])
    (h : ∀ part ∈ parts, part.isAlways = false) : (any parts).isAlways = false := by
  rw [any_eq_collapse h]
  exact isAlways_collapse rfl hne h

end Predicate

end Segmentation.Sql
