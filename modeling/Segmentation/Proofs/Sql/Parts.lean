import Segmentation.Proofs.Sql.InlinePredicate

/-!
# Parts of statements

A statement is a head that names its table, a predicate, and a tail that gives its limit.
Both written forms are these parts one after another, and in the bound form the places of the
values run on from part to part.  So the limit stands at the end of either form and nowhere
else.  The main statement is that the span of a query falls between characters of the inline
form, between the texts of the table and of the limit, and cuts out what the predicate alone
decides.
-/

namespace Segmentation.Sql

/-- The values of a part take their places before those of the parts behind it. -/
theorem boundText_append (dialect : Dialect) (index : Nat) (left right : List Piece) :
    boundText dialect index (left ++ right) =
      boundText dialect index left ++
        boundText dialect (index + (parameters left).length) right := by
  induction left generalizing index with
  | nil => exact String.empty_append.symm
  | cons piece left ih =>
      cases piece with
      | value bound =>
          have hplaces : index + 1 + (parameters left).length =
              index + (parameters (.value bound :: left)).length := by
            change _ = index + ((parameters left).length + 1)
            omega
          rw [List.cons_append, boundText, boundText, ih, hplaces, String.append_assoc]
      | _ =>
          rw [List.cons_append, boundText, boundText, ih, String.append_assoc]
          · rfl
          all_goals nofun

/-- A table as it stands in a statement. -/
def TableRef.text (table : TableRef) : String :=
  match table.schema with
  | none => identifier table.name
  | some schema => identifier schema ++ "." ++ identifier table.name

theorem inlineText_table (table : TableRef) : inlineText table.pieces = table.text := by
  rw [TableRef.pieces, TableRef.text]
  cases table.schema with
  | none => exact String.append_empty
  | some schema =>
      simp [inlineText, Piece.inlineText, String.append_assoc]

namespace Plan

theorem inlineText_headPieces (plan : Plan) :
    inlineText plan.headPieces = "SELECT * FROM " ++ plan.table.text ++ " WHERE " := by
  calc inlineText plan.headPieces
      = "SELECT * FROM " ++ (inlineText plan.table.pieces ++ inlineText [.fixed " WHERE "]) := by
        rw [headPieces, inlineText, inlineText_append]
        rfl
    _ = "SELECT * FROM " ++ plan.table.text ++ " WHERE " := by
        rw [inlineText_table, String.append_assoc]
        rfl

theorem inlineText_tailPieces (plan : Plan) :
    inlineText plan.tailPieces = " LIMIT " ++ toString plan.limit := by
  exact String.append_empty

/-- The limit ends the inline form. -/
theorem inlineSql_toQuery (plan : Plan) (dialect : Dialect) :
    (plan.toQuery dialect).inlineSql =
      inlineText (plan.headPieces ++ plan.predicatePieces) ++ " LIMIT " ++ toString plan.limit := by
  change inlineText plan.pieces = _
  rw [pieces, inlineText_append, inlineText_tailPieces, String.append_assoc]

/-- The limit ends the bound form. -/
theorem sql_toQuery (plan : Plan) (dialect : Dialect) :
    (plan.toQuery dialect).sql =
      boundText dialect 1 (plan.headPieces ++ plan.predicatePieces) ++ " LIMIT " ++
        toString plan.limit := by
  change boundText dialect 1 plan.pieces = _
  rw [pieces, boundText_append, String.append_assoc]
  exact congrArg _ String.append_empty

/-- The parameters are those of the statement without its limit. -/
theorem parameters_toQuery (plan : Plan) (dialect : Dialect) :
    (plan.toQuery dialect).params = parameters (plan.headPieces ++ plan.predicatePieces) := by
  change parameters plan.pieces = _
  rw [pieces, parameters, List.filterMap_append]
  exact List.append_nil _

/-- What the span of a query marks is the predicate. -/
theorem cut?_predicateSpan_toQuery (plan : Plan) (dialect : Dialect) :
    (plan.toQuery dialect).predicateSpan.cut? (plan.toQuery dialect).inlineSql =
      some (plan.toQuery dialect).inlinePredicate := by
  have hpieces : (plan.toQuery dialect).inlineSql = inlineText plan.headPieces ++
      inlineText plan.predicatePieces ++ inlineText plan.tailPieces := by
    change inlineText plan.pieces = _
    rw [pieces, inlineText_append, inlineText_append]
  rw [inlinePredicate_toQuery, hpieces]
  exact Span.cut?_append _ _ _

/-- The span of a query falls between characters of the inline statement and cuts out all that
stands between the texts of the table and of the limit, whatever names and values there are.
Plans with one predicate have one text of it there, whatever their tables, limits and dialects. -/
theorem predicateSpan_toQuery (plan : Plan) (dialect : Dialect) :
    let query := plan.toQuery dialect
    query.predicateSpan.IsWithin query.inlineSql ∧
    query.predicateSpan.cut? query.inlineSql = some query.inlinePredicate ∧
    query.inlineSql = "SELECT * FROM " ++ plan.table.text ++ " WHERE " ++ query.inlinePredicate ++
      " LIMIT " ++ toString plan.limit ∧
    ∀ table limit other,
      ({ plan with table, limit }.toQuery other).inlinePredicate = query.inlinePredicate := by
  intro query
  have hpredicate : query.inlinePredicate = inlineText plan.predicatePieces :=
    plan.inlinePredicate_toQuery dialect
  have hinline : query.inlineSql = inlineText plan.headPieces ++
      inlineText plan.predicatePieces ++ (" LIMIT " ++ toString plan.limit) := by
    rw [inlineSql_toQuery, inlineText_append, String.append_assoc]
  refine ⟨?_, cut?_predicateSpan_toQuery plan dialect, ?_, ?_⟩
  · rw [hinline]
    exact Span.isWithin_append _ _ _
  · rw [hinline, hpredicate, inlineText_headPieces]
    simp only [String.append_assoc]
  · intro table limit other
    rw [hpredicate, inlinePredicate_toQuery]
    rfl

example :
    let plan : Plan :=
      { table := { schema := some "a WHERE b", name := "LIMIT 1" }
        predicate := .compare " LIMIT " .eq (.text "ä' WHERE '\"")
        limit := 7 }
    (plan.toQuery .postgres).inlinePredicate = "\" LIMIT \" = 'ä'' WHERE ''\"'" := by
  decide +kernel

end Plan

end Segmentation.Sql
