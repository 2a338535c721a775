import Segmentation.Proofs.Sql.Leaves
import Segmentation.Proofs.Text.Span
import Segmentation.Sql.Query

/-!
# Inline predicates

The part that a query marks in its inline statement is its predicate.  Every leaf of a
predicate names a column, and no name is written with the characters of the test that
always holds, so a predicate with a leaf never looks like that test.
-/

namespace Segmentation.Sql

theorem inlineText_append (left right : List Piece) :
    inlineText (left ++ right) = inlineText left ++ inlineText right := by
  induction left with
  | nil => exact String.empty_append.symm
  | cons piece left ih => rw [List.cons_append, inlineText, inlineText, ih, String.append_assoc]

/-- The marked part of the inline statement is the predicate, whatever names and values it has. -/
theorem Plan.inlinePredicate_toQuery (plan : Plan) (dialect : Dialect) :
    (plan.toQuery dialect).inlinePredicate = inlineText plan.predicatePieces := by
  have hpieces : inlineText plan.pieces = inlineText plan.headPieces ++
      inlineText plan.predicatePieces ++ inlineText plan.tailPieces := by
    rw [Plan.pieces, inlineText_append, inlineText_append]
  rw [Query.inlinePredicate, toQuery, hpieces, Span.cut?_append, Option.getD_some]

/-! ## Names in inline predicates -/

theorem mem_toList_inlineText {pieces : List Piece} {piece : Piece} (hpiece : piece ∈ pieces)
    {c : Char} (hc : c ∈ piece.inlineText.toList) : c ∈ (inlineText pieces).toList := by
  obtain ⟨before, after, rfl⟩ := List.append_of_mem hpiece
  rw [inlineText_append, inlineText, String.toList_append, String.toList_append]
  exact List.mem_append_right _ (List.mem_append_left _ hc)

/-- A name is written with a quote, or begins like one that needs none. -/
theorem exists_mem_identifier (name : String) :
    ∃ c ∈ (identifier name).toList, c = '"' ∨ isNameStart c := by
  rw [identifier]
  split
  · next hplain =>
      cases hname : name.toList with
      | nil =>
          rw [hname] at hplain
          contradiction
      | cons c rest =>
          rw [hname, isPlainName, Bool.and_eq_true] at hplain
          exact ⟨c, List.mem_cons_self, .inr hplain.1⟩
  · exact ⟨'"', by rw [String.toList_ofList]; exact List.mem_cons_self, .inl rfl⟩

namespace Predicate

mutual

/-- Every leaf names a column. -/
theorem names_ne_nil : ∀ predicate : Predicate, ∀ leaf ∈ predicate.leaves, leaf.names ≠ []
  | .and parts, leaf, h => names_ne_nil_of_allLeaves parts leaf h
  | .or parts, leaf, h => names_ne_nil_of_allLeaves parts leaf h
  | .always, _, h => absurd h List.not_mem_nil
  | .compare _ _ _, _, h => List.mem_singleton.1 h ▸ List.cons_ne_nil _ _
  | .like _ _ _, _, h => List.mem_singleton.1 h ▸ List.cons_ne_nil _ _
  | .between _ _ _, _, h => List.mem_singleton.1 h ▸ List.cons_ne_nil _ _
  | .isNull _ _, _, h => List.mem_singleton.1 h ▸ List.cons_ne_nil _ _
  | .member _ _ _, _, h => List.mem_singleton.1 h ▸ List.cons_ne_nil _ _

theorem names_ne_nil_of_allLeaves :
    ∀ parts : List Predicate, ∀ leaf ∈ allLeaves parts, leaf.names ≠ []
  | [], _, h => absurd h List.not_mem_nil
  | part :: rest, leaf, h => by
      obtain hpart | hrest := List.mem_append.1 h
      · exact names_ne_nil part leaf hpart
      · exact names_ne_nil_of_allLeaves rest leaf hrest

end

/-- A predicate with a leaf has a name among its pieces. -/
theorem exists_name_mem_pieces {predicate : Predicate} (h : predicate.leaves ≠ []) (nested : Bool) :
    ∃ name, Piece.name name ∈ predicate.pieces nested := by
  obtain ⟨leaf, hleaf⟩ := List.exists_mem_of_ne_nil _ h
  obtain ⟨name, hname⟩ := List.exists_mem_of_ne_nil _ (predicate.names_ne_nil leaf hleaf)
  have hshown : name ∈ (predicate.pieces nested).filterMap Piece.name? := by
    rw [shows_names.filterMap_pieces]
    exact List.mem_flatMap.2 ⟨leaf, hleaf, hname⟩
  obtain ⟨piece, hpiece, hview⟩ := List.mem_filterMap.1 hshown
  cases piece with
  | name text =>
      obtain rfl : text = name := Option.some.inj hview
      exact ⟨text, hpiece⟩
  | _ => contradiction

/-- Only a predicate without leaves can be written like the test that always holds. -/
theorem leaves_eq_nil_of_inlineText_eq {predicate : Predicate} {nested : Bool}
    (h : inlineText (predicate.pieces nested) = "1=1") : predicate.leaves = [] := by
  by_contra hleaves
  obtain ⟨name, hname⟩ := exists_name_mem_pieces hleaves nested
  obtain ⟨c, hc, hclass⟩ := exists_mem_identifier name
  have hmem : c ∈ ['1', '=', '1'] := by
    have hwritten := mem_toList_inlineText hname hc
    rwa [h] at hwritten
  rw [List.mem_cons, List.mem_pair] at hmem
  obtain rfl | rfl | rfl := hmem <;> exact absurd hclass (by decide)

end Predicate

end Segmentation.Sql
