import Mathlib
import Segmentation.Proofs.Sql.Pieces
import Segmentation.Proofs.Sql.Template

/-!
# Fragments of statements

What stands between the values of a plan is the same in every written form of it, and
does not depend on the values.  The forms differ only in what stands for a value: a
numbered placeholder, a question mark or a literal.  Since no fragment holds a mark of a
placeholder outside a quoted name, a statement has no placeholders but those.

The whole of Mathlib is imported for `List.interleave`, which none of its modules brings.
-/

namespace Segmentation.Sql

/-! ## Texts without placeholders -/

/-- The characters of a text outside double quotes, if every quote is closed.  The text
begins between quotes or outside them. -/
def outsideQuotes? : Bool → List Char → Option (List Char)
  | true, [] => none
  | false, [] => some []
  | quoted, c :: rest =>
    if c = '"' then outsideQuotes? (!quoted) rest
    else if quoted then outsideQuotes? true rest
    else (outsideQuotes? false rest).map (c :: ·)

/-- Whether a text closes its double quotes and holds no mark of a placeholder outside
them. -/
def unmarked (text : String) : Bool :=
  (outsideQuotes? false text.toList).any fun shown => !shown.contains '$' && !shown.contains '?'

theorem unmarked_iff {text : String} : unmarked text ↔
    ∃ shown, outsideQuotes? false text.toList = some shown ∧ '$' ∉ shown ∧ '?' ∉ shown := by
  simp [unmarked, Option.any_eq_true]

theorem outsideQuotes?_append {quoted : Bool} {text shown : List Char} (rest : List Char)
    (htext : outsideQuotes? quoted text = some shown) :
    outsideQuotes? quoted (text ++ rest) = (outsideQuotes? false rest).map (shown ++ ·) := by
  induction text generalizing quoted shown with
  | nil =>
      cases quoted with
      | true => contradiction
      | false =>
          obtain rfl : [] = shown := Option.some.inj htext
          exact Option.map_id_apply.symm
  | cons c text ih =>
      rw [List.cons_append, outsideQuotes?]
      rw [outsideQuotes?] at htext
      by_cases hquote : c = '"'
      · rw [if_pos hquote] at htext ⊢
        exact ih htext
      · rw [if_neg hquote] at htext ⊢
        cases quoted with
        | true => exact ih htext
        | false =>
            obtain ⟨later, hlater, rfl⟩ := Option.map_eq_some_iff.1 htext
            simp [ih hlater, Function.comp_def]

theorem unmarked_append {left right : String} (hleft : unmarked left) (hright : unmarked right) :
    unmarked (left ++ right) := by
  obtain ⟨first, hfirst, hdollar, hquestion⟩ := unmarked_iff.1 hleft
  obtain ⟨second, hsecond, hdollar', hquestion'⟩ := unmarked_iff.1 hright
  refine unmarked_iff.2 ⟨first ++ second, ?_, ?_, ?_⟩
  · rw [String.toList_append, outsideQuotes?_append _ hfirst, hsecond, Option.map_some]
  · simp [hdollar, hdollar']
  · simp [hquestion, hquestion']

theorem outsideQuotes?_of_not_mem {text : List Char} (h : '"' ∉ text) :
    outsideQuotes? false text = some text := by
  induction text with
  | nil => rfl
  | cons c rest ih =>
      have hquote : c ≠ '"' := fun hsame => h (hsame ▸ List.mem_cons_self)
      have hrest : '"' ∉ rest := fun hmem => h (List.mem_cons_of_mem c hmem)
      simp [outsideQuotes?, hquote, ih hrest]

/-- A text of characters of a class that has none of the marks. -/
theorem unmarked_of_all {text : String} {allowed : Char → Bool}
    (hmarks : ['"', '$', '?'].all fun mark => !allowed mark) (h : text.toList.all allowed) :
    unmarked text := by
  have hnot : ∀ mark ∈ ['"', '$', '?'], mark ∉ text.toList := by
    intro mark hmark hmem
    have hfalse := List.all_eq_true.1 hmarks mark hmark
    rw [List.all_eq_true.1 h mark hmem] at hfalse
    contradiction
  have hshown := outsideQuotes?_of_not_mem (hnot '"' (by simp))
  exact unmarked_iff.2 ⟨text.toList, hshown, hnot '$' (by simp), hnot '?' (by simp)⟩

theorem outsideQuotes?_doubleQuotes (text : List Char) :
    outsideQuotes? true (Value.doubleQuotes '"' text ++ ['"']) = some [] := by
  induction text with
  | nil => rfl
  | cons c text ih =>
      rw [Value.doubleQuotes] at ih ⊢
      rw [List.flatMap_cons]
      by_cases hquote : c = '"'
      · simpa [hquote, outsideQuotes?] using ih
      · simpa [hquote, outsideQuotes?] using ih

theorem isNameRest_of_isPlainName {name : List Char} (hplain : isPlainName name) :
    name.all isNameRest := by
  cases name with
  | nil => contradiction
  | cons first rest =>
      rw [isPlainName, Bool.and_eq_true] at hplain
      have hfirst : isNameRest first := by
        have hstart := hplain.1
        simp only [isNameStart, isNameRest, Char.isAlphanum, Bool.or_eq_true] at hstart ⊢
        exact hstart.imp_left Or.inl
      rw [List.all_cons, hfirst, hplain.2]
      rfl

/-- A name is either quoted or without the marks of placeholders. -/
theorem unmarked_identifier (name : String) : unmarked (identifier name) := by
  rw [identifier]
  split
  · next hplain => exact unmarked_of_all rfl (isNameRest_of_isPlainName hplain)
  · refine unmarked_iff.2 ⟨[], ?_, List.not_mem_nil, List.not_mem_nil⟩
    rw [String.toList_ofList, outsideQuotes?, if_pos rfl]
    exact outsideQuotes?_doubleQuotes name.toList

/-! ## Fixed texts -/

/-- The texts that a predicate and its table are written with. -/
def fixedTexts : List String :=
  ["SELECT * FROM ", ".", " WHERE ", "1=1", " = ", " != ", " > ", " < ", " LIKE ", " NOT LIKE ",
    " ESCAPE '\\'", " BETWEEN ", " AND ", " OR ", " IS NULL", " IS NOT NULL", " IN ", " NOT IN ",
    "(SELECT ", " FROM ", "(", ")"]

/-- Whether a piece is a name, a value or one of the fixed texts. -/
def Piece.isCommon : Piece → Bool
  | .fixed text => fixedTexts.contains text
  | _ => true

theorem isCommon_enclose {pieces : List Piece} (nested : Bool)
    (h : pieces.all Piece.isCommon) : (enclose nested pieces).all Piece.isCommon := by
  cases nested with
  | false => exact h
  | true =>
      rw [enclose, if_pos rfl, List.all_cons, List.all_append, h]
      rfl

namespace Predicate

mutual

theorem isCommon_pieces : ∀ (nested : Bool) (predicate : Predicate),
    (predicate.pieces nested).all Piece.isCommon
  | _, .always => rfl
  | _, .compare _ comparison _ => by cases comparison <;> rfl
  | _, .like _ _ negated => by cases negated <;> rfl
  | _, .between _ _ _ => rfl
  | _, .isNull _ negated => by cases negated <;> rfl
  | _, .member _ _ negated => by cases negated <;> rfl
  | nested, .and parts => isCommon_enclose nested (isCommon_joinedPieces rfl parts)
  | nested, .or parts => isCommon_enclose nested (isCommon_joinedPieces rfl parts)

theorem isCommon_joinedPieces {separator : String} (h : fixedTexts.contains separator) :
    ∀ parts : List Predicate, (joinedPieces separator parts).all Piece.isCommon
  | [] => rfl
  | [part] => isCommon_pieces true part
  | part :: next :: rest => by
      rw [joinedPieces, List.all_append, isCommon_pieces true part, List.all_cons,
        isCommon_joinedPieces h (next :: rest), Piece.isCommon, h]
      · rfl
      · exact List.cons_ne_nil next rest

end

end Predicate

namespace Plan

/-- The fixed texts of a statement are the common ones and that of its limit. -/
theorem mem_fixedTexts_of_mem_pieces {plan : Plan} {text : String}
    (h : .fixed text ∈ plan.pieces) :
    text ∈ fixedTexts ∨ text = " LIMIT " ++ toString plan.limit := by
  have hcommon : (plan.headPieces ++ plan.predicatePieces).all Piece.isCommon := by
    obtain ⟨⟨schema, name⟩, predicate, limit⟩ := plan
    rw [List.all_append, predicatePieces, Predicate.isCommon_pieces, Bool.and_true]
    cases schema <;> rfl
  obtain hmem | hmem := List.mem_append.1 h
  · exact Or.inl (List.contains_iff_mem.1 (List.all_eq_true.1 hcommon _ hmem))
  · exact Or.inr (Piece.fixed.inj (List.mem_singleton.1 hmem))

theorem unmarked_fixed {plan : Plan} {text : String} (h : .fixed text ∈ plan.pieces) :
    unmarked text := by
  obtain hmem | rfl := mem_fixedTexts_of_mem_pieces h
  · have hall : fixedTexts.all unmarked := rfl
    exact List.all_eq_true.1 hall text hmem
  · have hdigits : (toString plan.limit).toList.all Char.isDigit := by
      rw [toList_limit]
      exact Numeral.all_isDigit_toDigits plan.limit.toNat
    exact unmarked_append rfl (unmarked_of_all rfl hdigits)

end Plan

/-! ## Fragments -/

/-- The texts between the values of pieces, with one before the first and one after the
last. -/
def fragments : List Piece → List String
  | [] => [""]
  | .value _ :: rest => "" :: fragments rest
  | piece :: rest => (fragments rest).modifyHead (piece.inlineText ++ ·)

theorem length_fragments (pieces : List Piece) :
    (fragments pieces).length = (parameters pieces).length + 1 := by
  induction pieces with
  | nil => rfl
  | cons piece rest ih =>
      cases piece with
      | value bound => exact congrArg Nat.succ ih
      | fixed text => exact List.length_modifyHead.trans ih
      | name name => exact List.length_modifyHead.trans ih

theorem exists_fragments_eq_cons (pieces : List Piece) :
    ∃ first later, fragments pieces = first :: later :=
  List.exists_cons_of_length_eq_add_one (length_fragments pieces)

/-- Values have no part in the fragments. -/
theorem fragments_map_template (pieces : List Piece) :
    fragments (pieces.map Piece.template) = fragments pieces := by
  induction pieces with
  | nil => rfl
  | cons piece rest ih =>
      cases piece with
      | value bound => exact congrArg ("" :: ·) ih
      | fixed text => exact congrArg (List.modifyHead _) ih
      | name name => exact congrArg (List.modifyHead _) ih

theorem unmarked_fragments {pieces : List Piece}
    (h : ∀ text, .fixed text ∈ pieces → unmarked text) : (fragments pieces).all unmarked := by
  induction pieces with
  | nil => rfl
  | cons piece rest ih =>
      have hrest := ih fun text hmem => h text (List.mem_cons_of_mem piece hmem)
      obtain ⟨first, later, hfragments⟩ := exists_fragments_eq_cons rest
      rw [hfragments, List.all_cons, Bool.and_eq_true] at hrest
      cases piece with
      | value bound =>
          rw [fragments, hfragments, List.all_cons, List.all_cons, hrest.1, hrest.2]
          rfl
      | fixed text =>
          have htext : unmarked text := h text List.mem_cons_self
          simp [fragments, hfragments, Piece.inlineText, unmarked_append htext hrest.1, hrest.2]
      | name name =>
          have hname : unmarked (identifier name) := unmarked_identifier name
          simp [fragments, hfragments, Piece.inlineText, unmarked_append hname hrest.1, hrest.2]

/-- Every written form of pieces is their fragments with a text for each value between
them. -/
theorem toList_join_fragments (spell : Nat → Value → String) (index : Nat)
    (pieces : List Piece) :
    (String.join ((fragments pieces).interleave
        (((parameters pieces).zipIdx index).map fun place => spell place.2 place.1))).toList =
      spelled spell index pieces := by
  induction pieces generalizing index with
  | nil => simp [fragments, parameters, spelled]
  | cons piece rest ih =>
      obtain ⟨first, later, hfragments⟩ := exists_fragments_eq_cons rest
      cases piece with
      | value bound =>
          rw [spelled, ← ih (index + 1), fragments, parameters_value, List.zipIdx_cons,
            List.map_cons]
          simp
      | fixed text =>
          simp [spelled, ← ih index, fragments, parameters_fixed, hfragments]
      | name name =>
          simp [spelled, ← ih index, fragments, parameters_name, hfragments]

theorem boundText_eq_join (dialect : Dialect) (index : Nat) (pieces : List Piece) :
    boundText dialect index pieces = String.join ((fragments pieces).interleave
      ((List.range' index (parameters pieces).length).map dialect.placeholder)) := by
  have hplaces : ((parameters pieces).zipIdx index).map (fun place => dialect.placeholder place.2) =
      (List.range' index (parameters pieces).length).map dialect.placeholder := by
    rw [← List.zipIdx_map_snd index (parameters pieces), List.map_map]
    rfl
  rw [← String.toList_inj, toList_boundText, ← hplaces]
  exact (toList_join_fragments (fun index _ => dialect.placeholder index) index pieces).symm

theorem inlineText_eq_join (pieces : List Piece) :
    inlineText pieces =
      String.join ((fragments pieces).interleave ((parameters pieces).map Value.literal)) := by
  have hliterals : ((parameters pieces).zipIdx 1).map (fun place => place.1.literal) =
      (parameters pieces).map Value.literal := by
    conv_rhs => rw [← List.zipIdx_map_fst 1 (parameters pieces), List.map_map]
    rfl
  rw [← String.toList_inj, toList_inlineText 1, ← hliterals]
  exact (toList_join_fragments (fun _ bound => bound.literal) 1 pieces).symm

/-! ## Placeholders -/

/-- The placeholders among the tokens of pieces are those of the values, in order. -/
theorem filter_isMark_tokensOf (dialect : Dialect) (index : Nat) {pieces : List Piece}
    (h : ∀ text, .fixed text ∈ pieces → (fixedTokens text).any Token.isMark = false) :
    (tokensOf (fun index _ => .ofPlaceholder dialect index) index pieces).filter Token.isMark =
      (List.range' index (parameters pieces).length).map (Token.ofPlaceholder dialect) := by
  induction pieces generalizing index with
  | nil => rfl
  | cons piece rest ih =>
      have hrest := fun index => ih index fun text hmem => h text (List.mem_cons_of_mem piece hmem)
      cases piece with
      | fixed text =>
          have hnone : (fixedTokens text).filter Token.isMark = [] :=
            List.filter_eq_nil_iff.2 (List.any_eq_false.1 (h text List.mem_cons_self))
          rw [tokensOf, List.filter_append, hnone, List.nil_append, hrest, parameters_fixed]
      | name name =>
          rw [tokensOf, List.filter_cons, Token.isMark_ofName, if_neg Bool.false_ne_true, hrest,
            parameters_name]
      | value bound =>
          have hmark : (Token.ofPlaceholder dialect index).isMark := by cases dialect <;> rfl
          rw [tokensOf, List.filter_cons, if_pos hmark, hrest, parameters_value, List.length_cons,
            List.range'_succ, List.map_cons]

namespace Plan

/-- The texts between the values of a statement. -/
def fragments (plan : Plan) : List String :=
  Sql.fragments plan.pieces

/-- The written forms of a plan are in line with some texts: the texts stand around the
values, every form has them in that order, and no other placeholder is read. -/
structure Aligned (plan : Plan) (texts : List String) : Prop where
  length : texts.length = (plan.toQuery .postgres).params.length + 1
  params : (plan.toQuery .positional).params = (plan.toQuery .postgres).params
  postgres : (plan.toQuery .postgres).sql = String.join (texts.interleave
    ((List.range' 1 (plan.toQuery .postgres).params.length).map fun index =>
      "$" ++ toString index))
  positional : (plan.toQuery .positional).sql = String.join (texts.interleave
    (List.replicate (plan.toQuery .positional).params.length "?"))
  inline : ∀ dialect, (plan.toQuery dialect).inlineSql = String.join (texts.interleave
    ((plan.toQuery dialect).params.map Value.literal))
  unmarked : texts.all unmarked
  numbered : (tokenize? (plan.toQuery .postgres).sql).map (·.filter Token.isMark) =
    some ((List.range' 1 (plan.toQuery .postgres).params.length).map fun index =>
      .mark (some index))
  anonymous : (tokenize? (plan.toQuery .positional).sql).map (·.filter Token.isMark) =
    some (List.replicate (plan.toQuery .positional).params.length (.mark none))

theorem map_range'_const {α : Type} (count : Nat) (value : α) :
    (List.range' 1 count).map (fun _ => value) = List.replicate count value := by
  rw [List.map_const', List.length_range']

theorem filter_isMark_toQuery (plan : Plan) (dialect : Dialect) :
    (tokenize? (plan.toQuery dialect).sql).map (·.filter Token.isMark) =
      some ((List.range' 1 (plan.toQuery dialect).params.length).map
        (Token.ofPlaceholder dialect)) := by
  obtain ⟨edge, hedge⟩ := plan.exists_edges?_pieces
  rw [tokenize?_toQuery, Option.map_some]
  exact congrArg some (filter_isMark_tokensOf dialect 1 fun _ => isMark_fixedTokens hedge)

/-- The bound forms, the parameters and the inline form of a plan are in line with
fragments that do not depend on the values. -/
theorem aligned_fragments (plan : Plan) :
    plan.template.fragments = plan.fragments ∧ plan.Aligned plan.fragments := by
  refine ⟨?_, ?_⟩
  · rw [fragments, pieces_template, fragments_map_template, fragments]
  · exact {
      length := length_fragments plan.pieces
      params := rfl
      postgres := boundText_eq_join .postgres 1 plan.pieces
      positional := by
        rw [← map_range'_const]
        exact boundText_eq_join .positional 1 plan.pieces
      inline := fun _ => inlineText_eq_join plan.pieces
      unmarked := unmarked_fragments fun _ => unmarked_fixed
      numbered := filter_isMark_toQuery plan .postgres
      anonymous := by
        rw [filter_isMark_toQuery, ← map_range'_const]
        rfl }

end Plan

end Segmentation.Sql
