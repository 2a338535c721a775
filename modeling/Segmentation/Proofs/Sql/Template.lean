import Segmentation.Sql.Query

/-!
# Templates

A template is what is left of a predicate when its values are forgotten.  The bound
text of a plan, and how many parameters it has, are a matter of its template: a
value never reaches the text.
-/

namespace Segmentation.Sql

/-- What stands for every forgotten value. -/
def Value.blank : Value :=
  .text ""

/-! ### Pieces without values -/

def Piece.template : Piece → Piece
  | .value _ => .value .blank
  | piece => piece

theorem boundText_map_template (dialect : Dialect) (index : Nat) (pieces : List Piece) :
    boundText dialect index (pieces.map Piece.template) = boundText dialect index pieces := by
  induction pieces generalizing index with
  | nil => rfl
  | cons piece rest ih =>
      cases piece with
      | fixed text => simp only [List.map_cons, Piece.template, boundText, ih]
      | name text => simp only [List.map_cons, Piece.template, boundText, ih]
      | value bound => simp only [List.map_cons, Piece.template, boundText, ih]

theorem length_parameters_map_template (pieces : List Piece) :
    (parameters (pieces.map Piece.template)).length = (parameters pieces).length := by
  induction pieces with
  | nil => rfl
  | cons piece rest ih =>
      cases piece with
      | fixed text => exact ih
      | name text => exact ih
      | value bound => exact congrArg Nat.succ ih

/-! ### Edits of pieces -/

/-- Whether editing a predicate amounts to editing its pieces: fixed text is kept, joins are
edited part by part, and any other predicate has edited pieces. -/
structure Predicate.Edits (edit : Predicate → Predicate) (editPiece : Piece → Piece) : Prop where
  fixed : ∀ text, editPiece (.fixed text) = .fixed text
  and : ∀ parts, edit (.and parts) = .and (parts.map edit)
  or : ∀ parts, edit (.or parts) = .or (parts.map edit)
  leaf : ∀ predicate nested, predicate.isCompound = false →
    (edit predicate).pieces nested = (predicate.pieces nested).map editPiece

namespace Predicate.Edits

variable {edit : Predicate → Predicate} {editPiece : Piece → Piece}

theorem map_enclose (h : Edits edit editPiece) (nested : Bool) (pieces : List Piece) :
    (enclose nested pieces).map editPiece = enclose nested (pieces.map editPiece) := by
  cases nested with
  | false => rfl
  | true => simp [enclose, h.fixed]

mutual

theorem pieces_eq_map (h : Edits edit editPiece) : ∀ (nested : Bool) (predicate : Predicate),
    (edit predicate).pieces nested = (predicate.pieces nested).map editPiece
  | nested, .and parts => by
      rw [h.and, pieces, pieces, h.map_enclose, joinedPieces_eq_map h]
  | nested, .or parts => by
      rw [h.or, pieces, pieces, h.map_enclose, joinedPieces_eq_map h]
  | nested, .always => h.leaf _ nested rfl
  | nested, .compare _ _ _ => h.leaf _ nested rfl
  | nested, .like _ _ _ => h.leaf _ nested rfl
  | nested, .between _ _ _ => h.leaf _ nested rfl
  | nested, .isNull _ _ => h.leaf _ nested rfl
  | nested, .member _ _ _ => h.leaf _ nested rfl

theorem joinedPieces_eq_map (h : Edits edit editPiece) :
    ∀ (separator : String) (parts : List Predicate),
      joinedPieces separator (parts.map edit) = (joinedPieces separator parts).map editPiece
  | _, [] => rfl
  | _, [part] => pieces_eq_map h true part
  | separator, part :: next :: rest => by
      change (edit part).pieces true ++
          .fixed separator :: joinedPieces separator ((next :: rest).map edit) =
        (part.pieces true ++ .fixed separator :: joinedPieces separator (next :: rest)).map
          editPiece
      rw [pieces_eq_map h true part, joinedPieces_eq_map h separator (next :: rest),
        List.map_append, List.map_cons, h.fixed]

end

end Predicate.Edits

/-! ### Predicates without values -/

namespace Predicate

mutual

/-- A predicate with its values forgotten. -/
def template : Predicate → Predicate
  | .always => .always
  | .compare column comparison _ => .compare column comparison .blank
  | .like column _ negated => .like column "" negated
  | .between column _ _ => .between column .blank .blank
  | .isNull column negated => .isNull column negated
  | .member key lookup negated => .member key { lookup with segmentId := "" } negated
  | .and parts => .and (templates parts)
  | .or parts => .or (templates parts)

def templates : List Predicate → List Predicate
  | [] => []
  | part :: rest => part.template :: templates rest

end

theorem templates_eq_map (parts : List Predicate) : templates parts = parts.map template := by
  induction parts with
  | nil => rfl
  | cons part rest ih => rw [templates, List.map_cons, ih]

theorem edits_template : Edits template Piece.template where
  fixed _ := rfl
  and parts := by rw [template, templates_eq_map]
  or parts := by rw [template, templates_eq_map]
  leaf predicate nested hleaf := by
    cases predicate with
    | and parts => contradiction
    | or parts => contradiction
    | _ => rfl

@[simp]
theorem isAlways_template (predicate : Predicate) :
    predicate.template.isAlways = predicate.isAlways := by
  cases predicate <;> rfl

theorem template_collapse {join : List Predicate → Predicate} (parts : List Predicate)
    (hjoin : (join parts).template = join (parts.map template)) :
    (collapse join parts).template = collapse join (parts.map template) := by
  match parts with
  | [] => rfl
  | [part] => rfl
  | first :: second :: rest => exact hjoin

theorem template_all (parts : List Predicate) :
    (all parts).template = all (parts.map template) := by
  have hfilter : (parts.map template).filter (fun part => !part.isAlways) =
      (parts.filter fun part => !part.isAlways).map template := by
    rw [List.filter_map]
    congr 2
    funext part
    exact congrArg not (isAlways_template part)
  rw [all, all, hfilter]
  apply template_collapse
  rw [template, templates_eq_map]

theorem template_any (parts : List Predicate) :
    (any parts).template = any (parts.map template) := by
  have halways : (parts.map template).any isAlways = parts.any isAlways := by
    rw [List.any_map]
    congr 1
    funext part
    exact isAlways_template part
  rw [any, any, halways]
  by_cases hparts : parts.any isAlways = true
  · rw [if_pos hparts, if_pos hparts]
    rfl
  · rw [if_neg hparts, if_neg hparts]
    apply template_collapse
    rw [template, templates_eq_map]

end Predicate

/-! ### Plans without values -/

namespace Plan

/-- A plan with its values forgotten. -/
def template (plan : Plan) : Plan :=
  { plan with predicate := plan.predicate.template }

theorem pieces_template (plan : Plan) :
    plan.template.pieces = plan.pieces.map Piece.template := by
  have htable : plan.table.pieces.map Piece.template = plan.table.pieces := by
    rw [TableRef.pieces]
    split <;> rfl
  have hhead : plan.headPieces.map Piece.template = plan.headPieces := by
    rw [headPieces, List.map_cons, List.map_append, htable]
    rfl
  have hpredicate : plan.template.predicatePieces = plan.predicatePieces.map Piece.template :=
    Predicate.edits_template.pieces_eq_map false plan.predicate
  rw [pieces, pieces, List.map_append, List.map_append, hhead, hpredicate]
  rfl

theorem sql_toQuery_template (plan : Plan) (dialect : Dialect) :
    (plan.template.toQuery dialect).sql = (plan.toQuery dialect).sql := by
  change boundText dialect 1 plan.template.pieces = boundText dialect 1 plan.pieces
  rw [pieces_template, boundText_map_template]

theorem length_params_toQuery_template (plan : Plan) (dialect : Dialect) :
    (plan.template.toQuery dialect).params.length = (plan.toQuery dialect).params.length := by
  change (parameters plan.template.pieces).length = (parameters plan.pieces).length
  rw [pieces_template, length_parameters_map_template]

end Plan

end Segmentation.Sql
