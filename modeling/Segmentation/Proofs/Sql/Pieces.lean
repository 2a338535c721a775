import Segmentation.Proofs.Sql.Token
import Segmentation.Sql.Query

/-!
# Tokens of pieces

The pieces of a statement never run together, whatever names and values they
hold: a name or a value is followed by a blank, a point or a parenthesis.  So
every written form of a statement has the tokens of its pieces, one after another.
-/

namespace Segmentation.Sql

open Lexer (Edge Mode)

/-! ## Pieces as tokens -/

/-- The tokens of a fixed text. -/
def fixedTokens (text : String) : List Token :=
  (tokenize? text).getD []

/-- The tokens of pieces, where `token` gives the one of a value at its place. -/
def tokensOf (token : Nat → Value → Token) : Nat → List Piece → List Token
  | _, [] => []
  | index, .fixed text :: rest => fixedTokens text ++ tokensOf token index rest
  | index, .name name :: rest => .ofName name :: tokensOf token index rest
  | index, .value bound :: rest => token index bound :: tokensOf token (index + 1) rest

/-- The text of pieces, where `spell` writes a value at its place. -/
def spelled (spell : Nat → Value → String) : Nat → List Piece → List Char
  | _, [] => []
  | index, .value bound :: rest => (spell index bound).toList ++ spelled spell (index + 1) rest
  | index, piece :: rest => piece.inlineText.toList ++ spelled spell index rest

theorem toList_boundText (dialect : Dialect) (index : Nat) (pieces : List Piece) :
    (boundText dialect index pieces).toList =
      spelled (fun index _ => dialect.placeholder index) index pieces := by
  induction pieces generalizing index with
  | nil => rfl
  | cons piece rest ih =>
      cases piece <;> simp [boundText, spelled, ih]

theorem toList_inlineText (index : Nat) (pieces : List Piece) :
    (inlineText pieces).toList = spelled (fun _ bound => bound.literal) index pieces := by
  induction pieces generalizing index with
  | nil => rfl
  | cons piece rest ih =>
      rw [inlineText, String.toList_append]
      cases piece with
      | value bound => rw [spelled, ih (index + 1), Piece.inlineText]
      | fixed text => exact congrArg (_ ++ ·) (ih index)
      | name name => exact congrArg (_ ++ ·) (ih index)

theorem parameters_fixed (text : String) (rest : List Piece) :
    parameters (.fixed text :: rest) = parameters rest :=
  rfl

theorem parameters_name (name : String) (rest : List Piece) :
    parameters (.name name :: rest) = parameters rest :=
  rfl

theorem parameters_value (bound : Value) (rest : List Piece) :
    parameters (.value bound :: rest) = bound :: parameters rest :=
  rfl

/-! ## Edges of pieces -/

/-- What a fixed text leaves open, if it can be read on its own and holds no placeholder. -/
def fixedEdge? (text : String) : Option Edge := do
  let (_, last) ← Lexer.scan .between text.toList
  if (fixedTokens text).any Token.isMark then none else last.edge?

namespace Piece

/-- What a piece leaves open behind an edge, if it may stand there. -/
def edge? (edge : Edge) : Piece → Option Edge
  | .name _ => if edge = .clear then some .name else none
  | .value _ => if edge = .clear then some .value else none
  | .fixed text => if text.toList.head?.any edge.allows then fixedEdge? text else none

end Piece

/-- What pieces leave open behind an edge, if none of them runs into the one before it. -/
def edges? : Edge → List Piece → Option Edge
  | edge, [] => some edge
  | edge, piece :: rest => (piece.edge? edge).bind fun next => edges? next rest

theorem edges?_append (edge : Edge) (left right : List Piece) :
    edges? edge (left ++ right) = (edges? edge left).bind fun next => edges? next right := by
  induction left generalizing edge with
  | nil => rfl
  | cons piece left ih => simp [edges?, ih, Option.bind_assoc]

theorem Lexes.fixed {text : String} {edge : Edge} (hne : text.toList ≠ [])
    (hedge : fixedEdge? text = some edge) :
    Lexes text.toList (fixedTokens text) edge ∧ (fixedTokens text).any Token.isMark = false := by
  obtain ⟨⟨first, last⟩, hscan, hlast⟩ := Option.bind_eq_some_iff.mp hedge
  simp only [Option.ite_none_left_eq_some, Bool.not_eq_true] at hlast
  obtain ⟨hmarks, hlast⟩ := hlast
  obtain ⟨pending, hpending⟩ := Mode.pending?_of_edge? hlast
  have hlexes := Lexes.of_scan hne hscan hpending hlast
  have htokens : fixedTokens text = first ++ pending := by
    rw [fixedTokens, hlexes.tokenize?, Option.getD_some]
  exact ⟨htokens ▸ hlexes, hmarks⟩

/-- Only a value can stand for a placeholder. -/
theorem isMark_fixedTokens {pieces : List Piece} {edge last : Edge}
    (hedges : edges? edge pieces = some last) {text : String} (hmem : .fixed text ∈ pieces) :
    (fixedTokens text).any Token.isMark = false := by
  induction pieces generalizing edge with
  | nil => contradiction
  | cons piece rest ih =>
      obtain ⟨next, hpiece, hrest⟩ := Option.bind_eq_some_iff.mp hedges
      obtain rfl | hmem := List.mem_cons.mp hmem
      · simp only [Piece.edge?, Option.ite_none_right_eq_some] at hpiece
        have hne : text.toList ≠ [] := by
          intro hnil
          simp [hnil] at hpiece
        exact (Lexes.fixed hne hpiece.2).2
      · exact ih hrest hmem

/-- The text of pieces that do not run together has the tokens of the pieces. -/
theorem Lexes.append_spelled {spell : Nat → Value → String} {token : Nat → Value → Token}
    {text : List Char} {tokens : List Token} {edge last : Edge} (pieces : List Piece)
    (hvalue : ∀ index, ∀ bound ∈ parameters pieces,
      Lexes (spell index bound).toList [token index bound] .value)
    (hedges : edges? edge pieces = some last) (htext : Lexes text tokens edge) (index : Nat) :
    Lexes (text ++ spelled spell index pieces) (tokens ++ tokensOf token index pieces) last := by
  induction pieces generalizing text tokens edge index with
  | nil =>
      cases hedges
      simpa [spelled, tokensOf] using htext
  | cons piece rest ih =>
      obtain ⟨next, hpiece, hrest⟩ := Option.bind_eq_some_iff.mp hedges
      have hlater : ∀ index, ∀ bound ∈ parameters rest,
          Lexes (spell index bound).toList [token index bound] .value := by
        intro index bound hmem
        apply hvalue index bound
        rw [parameters, List.mem_filterMap] at hmem ⊢
        obtain ⟨found, hfound, hbound⟩ := hmem
        exact ⟨found, List.mem_cons_of_mem piece hfound, hbound⟩
      cases piece with
      | name name =>
          simp only [Piece.edge?, Option.ite_none_right_eq_some, Option.some.injEq] at hpiece
          obtain ⟨rfl, rfl⟩ := hpiece
          have happend := htext.append (Lexes.identifier name) fun _ _ => rfl
          simpa [spelled, tokensOf, Piece.inlineText] using ih hlater hrest happend index
      | value bound =>
          simp only [Piece.edge?, Option.ite_none_right_eq_some, Option.some.injEq] at hpiece
          obtain ⟨rfl, rfl⟩ := hpiece
          have hbound : bound ∈ parameters (.value bound :: rest) := by
            simp [parameters, Piece.value?]
          have happend := htext.append (hvalue index bound hbound) fun _ _ => rfl
          simpa [spelled, tokensOf] using ih hlater hrest happend (index + 1)
      | fixed fixed =>
          simp only [Piece.edge?, Option.ite_none_right_eq_some] at hpiece
          obtain ⟨hallowed, hfixed⟩ := hpiece
          have hne : fixed.toList ≠ [] := by
            intro hnil
            simp [hnil] at hallowed
          have hhead : ∀ c ∈ fixed.toList.head?, edge.allows c := by
            intro c hc
            rw [Option.mem_def] at hc
            simpa [hc] using hallowed
          have happend := htext.append (Lexes.fixed hne hfixed).1 hhead
          simpa [spelled, tokensOf, Piece.inlineText] using ih hlater hrest happend index

/-! ## The pieces of a plan -/

theorem exists_edges?_enclose {pieces : List Piece} (nested : Bool)
    (hpieces : ∃ edge, edges? .clear pieces = some edge) :
    ∃ edge, edges? .clear (enclose nested pieces) = some edge := by
  obtain ⟨edge, hedge⟩ := hpieces
  cases nested with
  | false => exact ⟨edge, hedge⟩
  | true =>
      have hopen : fixedEdge? "(" = some .clear := rfl
      have hclose : fixedEdge? ")" = some .clear := rfl
      have hfirst : Edge.clear.allows '(' := rfl
      have hlast : edge.allows ')' := by cases edge <;> rfl
      refine ⟨.clear, ?_⟩
      simp [enclose, edges?, Piece.edge?, edges?_append, hopen, hclose, hfirst, hlast, hedge]

theorem edges?_fixed_blank {text : String} {next : Edge} (edge : Edge) (rest : List Piece)
    (hblank : text.toList.head? = some ' ') (hfixed : fixedEdge? text = some next) :
    edges? edge (.fixed text :: rest) = edges? next rest := by
  have hallowed : edge.allows ' ' := by cases edge <;> rfl
  simp [edges?, Piece.edge?, hblank, hallowed, hfixed]

namespace Predicate

mutual

/-- The pieces of a predicate never run together. -/
theorem exists_edges?_pieces : ∀ (predicate : Predicate) (nested : Bool),
    ∃ edge, edges? .clear (predicate.pieces nested) = some edge
  | .always, _ => ⟨.value, rfl⟩
  | .compare _ comparison _, _ => by cases comparison <;> exact ⟨.value, rfl⟩
  | .like _ _ negated, _ => by cases negated <;> exact ⟨.name, rfl⟩
  | .between _ _ _, _ => ⟨.value, rfl⟩
  | .isNull _ negated, _ => by cases negated <;> exact ⟨.name, rfl⟩
  | .member _ _ negated, _ => by cases negated <;> exact ⟨.clear, rfl⟩
  | .and parts, nested => exists_edges?_enclose nested (exists_edges?_joinedPieces parts rfl rfl)
  | .or parts, nested => exists_edges?_enclose nested (exists_edges?_joinedPieces parts rfl rfl)

theorem exists_edges?_joinedPieces {separator : String} : ∀ parts : List Predicate,
    separator.toList.head? = some ' ' → fixedEdge? separator = some .clear →
      ∃ edge, edges? .clear (joinedPieces separator parts) = some edge
  | [], _, _ => ⟨.clear, rfl⟩
  | [part], _, _ => by
      rw [joinedPieces]
      exact exists_edges?_pieces part true
  | part :: second :: rest, hblank, hclear => by
      obtain ⟨middle, hpart⟩ := exists_edges?_pieces part true
      obtain ⟨last, hrest⟩ := exists_edges?_joinedPieces (second :: rest) hblank hclear
      refine ⟨last, ?_⟩
      rw [joinedPieces, edges?_append, hpart, Option.bind_some,
        edges?_fixed_blank middle _ hblank hclear, hrest]
      simp

end

end Predicate

namespace Plan

theorem edges?_headPieces (plan : Plan) : edges? .clear plan.headPieces = some .clear := by
  obtain ⟨⟨schema, name⟩, predicate, limit⟩ := plan
  cases schema <;> rfl

theorem toList_limit (limit : UInt32) :
    (toString limit).toList = Nat.toDigits 10 limit.toNat := by
  change (Nat.repr limit.toNat).toList = _
  rw [Nat.toList_repr]

/-- The text of a limit is a word and a number. -/
theorem scan_limitText (limit : UInt32) :
    Lexer.scan .between (" LIMIT " ++ toString limit).toList =
      some ([.word "LIMIT"], .number (toString limit).toList) := by
  have hword : Lexer.scan .between " LIMIT ".toList = some ([.word "LIMIT"], .between) := rfl
  have hnumber := Lexer.scan_between_digits Nat.toDigits_ne_nil
    (Numeral.all_isDigit_toDigits limit.toNat)
  rw [String.toList_append, toList_limit]
  exact Lexer.scan_append hword hnumber

theorem fixedTokens_limitText (limit : UInt32) :
    fixedTokens (" LIMIT " ++ toString limit) = [.word "LIMIT", .number (toString limit)] := by
  have hlexes := Lexes.of_scan (by rw [String.toList_append]; exact List.cons_ne_nil _ _)
    (scan_limitText limit) rfl rfl
  rw [fixedTokens, hlexes.tokenize?, String.ofList_toList]
  rfl

theorem fixedEdge?_limitText (limit : UInt32) :
    fixedEdge? (" LIMIT " ++ toString limit) = some .value := by
  simp only [fixedEdge?, scan_limitText, fixedTokens_limitText]
  rfl

/-- The pieces of a plan never run together. -/
theorem exists_edges?_pieces (plan : Plan) :
    ∃ edge, edges? .clear plan.pieces = some edge := by
  obtain ⟨middle, hmiddle⟩ := plan.predicate.exists_edges?_pieces false
  have hblank : (" LIMIT " ++ toString plan.limit).toList.head? = some ' ' := by
    rw [String.toList_append]
    rfl
  refine ⟨.value, ?_⟩
  rw [pieces, edges?_append, edges?_append, edges?_headPieces, Option.bind_some, predicatePieces,
    hmiddle, Option.bind_some, tailPieces,
    edges?_fixed_blank middle [] hblank (fixedEdge?_limitText plan.limit), edges?]

/-- A statement in which values are spelled as single tokens has the tokens of its pieces. -/
theorem lexes_spelled (plan : Plan) (spell : Nat → Value → String) (token : Nat → Value → Token)
    (hvalue : ∀ index, ∀ bound ∈ parameters plan.pieces,
      Lexes (spell index bound).toList [token index bound] .value) :
    ∃ edge, Lexes (spelled spell 1 plan.pieces) (tokensOf token 1 plan.pieces) edge := by
  obtain ⟨edge, hedge⟩ := plan.exists_edges?_pieces
  obtain ⟨rest, hpieces⟩ : ∃ rest, plan.pieces = .fixed "SELECT * FROM " :: rest := ⟨_, rfl⟩
  have hne : "SELECT * FROM ".toList ≠ [] := List.cons_ne_nil _ _
  have hclear : fixedEdge? "SELECT * FROM " = some .clear := rfl
  rw [hpieces] at hvalue hedge ⊢
  have hrest : edges? .clear rest = some edge := hedge
  exact ⟨edge, Lexes.append_spelled rest hvalue hrest (Lexes.fixed hne hclear).1 1⟩

/-- A bound statement has the tokens of its pieces, with a placeholder for every value. -/
theorem tokenize?_toQuery (plan : Plan) (dialect : Dialect) :
    tokenize? (plan.toQuery dialect).sql =
      some (tokensOf (fun index _ => .ofPlaceholder dialect index) 1 plan.pieces) := by
  obtain ⟨edge, hlexes⟩ := plan.lexes_spelled (fun index _ => dialect.placeholder index)
    (fun index _ => .ofPlaceholder dialect index) fun index _ _ => Lexes.placeholder dialect index
  rw [← toList_boundText] at hlexes
  exact hlexes.tokenize?

end Plan

end Segmentation.Sql
