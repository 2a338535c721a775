import Segmentation.Proofs.Compilation.Leaves
import Segmentation.Proofs.Sql.Literal
import Segmentation.Proofs.Sql.Pieces

/-!
# Tokens of inline statements

A value does not break out of its literal: an inline statement has the tokens of the
bound statement, with one token for the literal of each value where its placeholder
stands.  This holds of every plan whose numbers can be written, and the plans of
definitions hold no others.
-/

namespace Segmentation.Sql

open Lexer (Edge)

/-! ### Literals in place of placeholders -/

/-- The tokens with those of the literals of some values in place of the placeholders, if
there are as many placeholders as values. -/
def inlined? : List Value → List Token → Option (List Token)
  | [], [] => some []
  | _ :: _, [] => none
  | [], .mark _ :: _ => none
  | bound :: later, .mark _ :: rest => (inlined? later rest).map (.ofValue bound :: ·)
  | bounds, token :: rest => (inlined? bounds rest).map (token :: ·)

theorem inlined?_append {tokens : List Token} (hmarks : tokens.any Token.isMark = false)
    (bounds : List Value) (rest : List Token) :
    inlined? bounds (tokens ++ rest) = (inlined? bounds rest).map (tokens ++ ·) := by
  induction tokens with
  | nil => simp
  | cons token tokens ih =>
      rw [List.any_cons, Bool.or_eq_false_iff] at hmarks
      have htoken : inlined? bounds (token :: (tokens ++ rest)) =
          (inlined? bounds (tokens ++ rest)).map (token :: ·) := by
        cases token with
        | mark number => cases hmarks.1
        | _ => cases bounds <;> rfl
      rw [List.cons_append, htoken, ih hmarks.2, Option.map_map]
      rfl

/-- The placeholders of pieces are replaced by the literals of their values. -/
theorem inlined?_tokensOf (dialect : Dialect) (index : Nat) {pieces : List Piece}
    (hmarks : ∀ text, .fixed text ∈ pieces → (fixedTokens text).any Token.isMark = false) :
    inlined? (parameters pieces)
        (tokensOf (fun index _ => .ofPlaceholder dialect index) index pieces) =
      some (tokensOf (fun _ bound => .ofValue bound) index pieces) := by
  induction pieces generalizing index with
  | nil => rfl
  | cons piece rest ih =>
      have hrest := fun index => ih index fun text hmem => hmarks text (List.mem_cons_of_mem _ hmem)
      cases piece with
      | fixed text =>
          rw [parameters_fixed, tokensOf, inlined?_append (hmarks text List.mem_cons_self), hrest]
          rfl
      | name name =>
          have hname : [Token.ofName name].any Token.isMark = false := by simp
          rw [parameters_name, tokensOf, ← List.singleton_append, inlined?_append hname, hrest]
          rfl
      | value bound =>
          obtain ⟨number, hmark⟩ : ∃ number, Token.ofPlaceholder dialect index = .mark number := by
            cases dialect <;> exact ⟨_, rfl⟩
          rw [parameters_value, tokensOf, hmark, inlined?, hrest]
          rfl

/-! ### Inline statements of plans -/

namespace Plan

/-- An inline statement has the tokens of its pieces, with a literal for every value. -/
theorem tokenize?_inlineText {plan : Plan}
    (hparams : ∀ bound ∈ parameters plan.pieces, bound.WellFormed) :
    tokenize? (inlineText plan.pieces) =
      some (tokensOf (fun _ bound => .ofValue bound) 1 plan.pieces) := by
  obtain ⟨edge, hlexes⟩ := plan.lexes_spelled (fun _ bound => bound.literal)
    (fun _ bound => .ofValue bound) fun _ bound hmem => Lexes.literal (hparams bound hmem)
  rw [← toList_inlineText] at hlexes
  exact hlexes.tokenize?

theorem parameters_pieces (plan : Plan) :
    parameters plan.pieces = plan.predicate.leaves.flatMap Predicate.values := by
  have hhead : parameters plan.headPieces = [] := by
    obtain ⟨⟨schema, name⟩, predicate, limit⟩ := plan
    cases schema <;> rfl
  have htail : parameters plan.tailPieces = [] := rfl
  rw [parameters] at hhead htail
  rw [parameters, pieces, List.filterMap_append, List.filterMap_append, hhead, htail,
    predicatePieces, Predicate.shows_values.filterMap_pieces, List.append_nil, List.nil_append]

end Plan

end Segmentation.Sql

namespace Segmentation.Compilation

open Sql (Value)

theorem wellFormed_typedValue (type : AttributeType) (raw : String) :
    (typedValue type raw).WellFormed := by
  rw [typedValue]
  split
  · exact Value.wellFormed_ofTyped raw
  · trivial

theorem wellFormed_conditionPredicate (dataset : Dataset) (condition : Condition) :
    ∀ bound ∈ (conditionPredicate dataset condition).values, bound.WellFormed := by
  intro bound hmem
  have htyped := wellFormed_typedValue (dataset.typeOf condition.field)
  unfold conditionPredicate at hmem
  cases hoperator : condition.operator <;>
    simp only [hoperator, Sql.Predicate.values, List.mem_cons, List.not_mem_nil, or_false] at hmem
  case between =>
      obtain rfl | rfl := hmem
      · exact htyped _
      · exact htyped _
  case equals | notEquals | greaterThan | lessThan => exact hmem ▸ htyped _
  case contains | notContains | startsWith | endsWith => exact hmem ▸ trivial

/-- The numbers that the statement of a definition binds can be written. -/
theorem wellFormed_params (definition : Definition) (dataset : Dataset) (settings : Settings)
    (cap : Sql.RowCap) :
    ∀ bound ∈ (definition.toQuery dataset settings cap).params, bound.WellFormed := by
  intro bound hmem
  change bound ∈ Sql.parameters (definition.toPlan dataset settings.membership cap).pieces at hmem
  rw [Sql.Plan.parameters_pieces, List.mem_flatMap] at hmem
  obtain ⟨leaf, hleaf, hbound⟩ := hmem
  change leaf ∈ (predicate dataset definition settings.membership).leaves at hleaf
  rw [leaves_predicate, List.mem_append, List.mem_map, List.mem_map] at hleaf
  obtain ⟨condition, _, rfl⟩ | ⟨member, _, rfl⟩ := hleaf
  · exact wellFormed_conditionPredicate dataset condition bound hbound
  · exact List.mem_singleton.1 hbound ▸ trivial

end Segmentation.Compilation

namespace Segmentation.Sql.Plan

/-- A value does not break out of its literal.  An inline statement has the tokens of the
bound statement, with the literal of each value as one token in place of its placeholder,
if every number can be written; and a definition has no other numbers. -/
theorem tokenize?_inlineSql_toQuery :
    (∀ (plan : Plan) (dialect : Dialect),
      (∀ bound ∈ (plan.toQuery dialect).params, bound.WellFormed) →
        ∃ tokens inline, tokenize? (plan.toQuery dialect).sql = some tokens ∧
          inlined? (plan.toQuery dialect).params tokens = some inline ∧
          tokenize? (plan.toQuery dialect).inlineSql = some inline) ∧
    ∀ (definition : Definition) (dataset : Dataset) (settings : Settings) (cap : RowCap),
      ∀ bound ∈ (definition.toQuery dataset settings cap).params, bound.WellFormed := by
  refine ⟨?_, Compilation.wellFormed_params⟩
  intro plan dialect hparams
  obtain ⟨edge, hedge⟩ := plan.exists_edges?_pieces
  have hmarks : ∀ text, .fixed text ∈ plan.pieces →
      (fixedTokens text).any Token.isMark = false := fun _ => isMark_fixedTokens hedge
  exact ⟨_, _, plan.tokenize?_toQuery dialect, inlined?_tokensOf dialect 1 hmarks,
    tokenize?_inlineText hparams⟩

/-- A plan whose texts and names hold quotes, backslashes, placeholders and comment marks,
with numbers that are written with a sign. -/
def breakingOut : Plan where
  table := { schema := some "a\"; --", name := "$1" }
  predicate := .and
    [.compare "name" .eq (.text "' OR 1=1; --"), .like "50%\"?" "\\'%" true,
      .or [.between "balance" (.int (-7)) (.numeric "+12.50"),
        .compare "rate" .neq (.float ⟨true, 1023 * Double.binade⟩)],
      .member "id" ⟨"$2", "?", "\"\"", "''$1\\"⟩ false]
  limit := 100

theorem tokenize?_inlineSql_breakingOut :
    (∀ bound ∈ (breakingOut.toQuery .postgres).params, bound.WellFormed) ∧
      ∃ tokens inline, tokenize? (breakingOut.toQuery .postgres).sql = some tokens ∧
        inlined? (breakingOut.toQuery .postgres).params tokens = some inline ∧
        tokenize? (breakingOut.toQuery .postgres).inlineSql = some inline := by
  have hplain : Numeral.IsPlain "+12.50".toList :=
    .signed (Or.inl rfl) (.point ⟨List.cons_ne_nil '1' ['2'], rfl⟩ ⟨List.cons_ne_nil '5' ['0'], rfl⟩)
  have hfinite : Double.isFinite ⟨true, 1023 * Double.binade⟩ := by decide
  have hparams : ∀ bound ∈ (breakingOut.toQuery .postgres).params, bound.WellFormed := by
    change ∀ bound ∈ [.text "' OR 1=1; --", .text "\\'%", .int (-7), .numeric "+12.50",
      .float ⟨true, 1023 * Double.binade⟩, .text "''$1\\"], Value.WellFormed bound
    simpa [Value.WellFormed, hfinite] using hplain
  exact ⟨hparams, tokenize?_inlineSql_toQuery.1 breakingOut .postgres hparams⟩

end Segmentation.Sql.Plan
