import Segmentation.Proofs.Sql.Pieces
import Segmentation.Proofs.Sql.Reading

/-!
# Statements read back as their plans

A bound statement with its parameters determines the plan it was written for:
reading it gives that plan.  The only plans to which this does not apply hold a
join of less than two parts, of which nothing is left in a statement.
-/

namespace Segmentation.Sql

open Lexer (Edge)

namespace Piece

/-- The tokens of a piece, with the value itself where a placeholder stands. -/
def tokens : Piece → List Token
  | .fixed text => fixedTokens text
  | .name text => [.ofName text]
  | .value bound => [.value bound]

end Piece

namespace Predicate

mutual

/-- Whether every join has at least two parts. -/
def wellJoined : Predicate → Bool
  | .and parts => 2 ≤ parts.length && allWellJoined parts
  | .or parts => 2 ≤ parts.length && allWellJoined parts
  | _ => true

def allWellJoined : List Predicate → Bool
  | [] => true
  | part :: rest => part.wellJoined && allWellJoined rest

end

def tokens (nested : Bool) (predicate : Predicate) : List Token :=
  (predicate.pieces nested).flatMap Piece.tokens

def joinedTokens (separator : String) (parts : List Predicate) : List Token :=
  (joinedPieces separator parts).flatMap Piece.tokens

end Predicate

namespace Reading

/-! ## Placeholders stand for the parameters in order -/

theorem fill?_append {params : List Value} {tokens : List Token}
    (hmarks : tokens.any Token.isMark = false) (seen : Nat) (rest : List Token) :
    fill? params seen (tokens ++ rest) = (fill? params seen rest).map (tokens ++ ·) := by
  induction tokens with
  | nil => simp
  | cons token tokens ih =>
      rw [List.any_cons, Bool.or_eq_false_iff] at hmarks
      have htoken : fill? params seen (token :: (tokens ++ rest)) =
          (fill? params seen (tokens ++ rest)).map (token :: ·) := by
        cases token with
        | mark number => cases hmarks.1
        | _ => rfl
      rw [List.cons_append, htoken, ih hmarks.2, Option.map_map]
      rfl

theorem parameter?_ofPlaceholder (dialect : Dialect) (before after : List Value) (bound : Value) :
    ∃ number, Token.ofPlaceholder dialect (before.length + 1) = .mark number ∧
      parameter? (before ++ bound :: after) before.length number = some bound := by
  cases dialect with
  | postgres => exact ⟨some (before.length + 1), rfl, by simp [parameter?]⟩
  | positional => exact ⟨none, rfl, by simp [parameter?]⟩

/-- The placeholders of pieces stand for their values, in both dialects. -/
theorem fill?_tokensOf (dialect : Dialect) {pieces : List Piece} {edge last : Edge}
    (hedges : edges? edge pieces = some last) (before : List Value) :
    fill? (before ++ parameters pieces) before.length
        (tokensOf (fun index _ => .ofPlaceholder dialect index) (before.length + 1) pieces) =
      some (pieces.flatMap Piece.tokens) := by
  induction pieces generalizing edge before with
  | nil => rfl
  | cons piece rest ih =>
      obtain ⟨next, hpiece, hrest⟩ := Option.bind_eq_some_iff.mp hedges
      cases piece with
      | fixed text =>
          have hmarks := isMark_fixedTokens hedges List.mem_cons_self
          rw [parameters_fixed, tokensOf, fill?_append hmarks, ih hrest before]
          rfl
      | name name =>
          have hmarks : [Token.ofName name].any Token.isMark = false := by simp
          rw [parameters_name, tokensOf, ← List.singleton_append, fill?_append hmarks,
            ih hrest before]
          rfl
      | value bound =>
          obtain ⟨number, hmark, hnumber⟩ :=
            parameter?_ofPlaceholder dialect before (parameters rest) bound
          have hlater := ih hrest (before ++ [bound])
          rw [List.append_assoc, List.singleton_append, List.length_append,
            List.length_singleton] at hlater
          rw [parameters_value, tokensOf, hmark, fill?, hnumber, hlater]
          rfl

/-! ## Conditions are read as they are written -/

theorem name?_ofName (name : String) : name? (.ofName name) = some name := by
  rw [Token.ofName]
  split <;> rfl

theorem operand?_ofName (depth : Nat) (column : String) (rest : List Token) :
    operand? (depth + 1) (.ofName column :: rest) = condition? column rest := by
  rw [Token.ofName]
  split <;> rfl

/-- A predicate that is no join is read as an operand, nested or not. -/
theorem operand?_condition {predicate : Predicate} (hsingle : predicate.isCompound = false)
    (nested : Bool) (depth : Nat) (rest : List Token) :
    operand? (depth + 1) (predicate.tokens nested ++ rest) = some (predicate, rest) := by
  cases predicate with
  | always => rfl
  | compare column comparison bound =>
      change operand? (depth + 1) (.ofName column :: _) = _
      rw [operand?_ofName]
      cases comparison <;> rfl
  | like column pattern negated =>
      change operand? (depth + 1) (.ofName column :: _) = _
      rw [operand?_ofName]
      cases negated <;> rfl
  | between column low high =>
      change operand? (depth + 1) (.ofName column :: _) = _
      rw [operand?_ofName]
      rfl
  | isNull column negated =>
      change operand? (depth + 1) (.ofName column :: _) = _
      rw [operand?_ofName]
      cases negated <;> rfl
  | member key lookup negated =>
      have hlookup : lookup? key negated (.symbol "(" :: .word "SELECT"
          :: .ofName lookup.keyColumn :: .word "FROM" :: .ofName lookup.table :: .word "WHERE"
          :: .ofName lookup.segmentColumn :: .symbol "=" :: .value (.text lookup.segmentId)
          :: .symbol ")" :: rest) = some (.member key lookup negated, rest) := by
        simp [lookup?, name?_ofName]
      change operand? (depth + 1) (.ofName key :: _) = _
      rw [operand?_ofName, ← hlookup]
      cases negated <;> rfl
  | and parts => simp [Predicate.isCompound] at hsingle
  | or parts => simp [Predicate.isCompound] at hsingle

/-! ## Joins are read part by part -/

theorem joinedTokens_cons_cons (separator : String) (part second : Predicate)
    (rest : List Predicate) :
    Predicate.joinedTokens separator (part :: second :: rest) =
      part.tokens true
        ++ (fixedTokens separator ++ Predicate.joinedTokens separator (second :: rest)) := by
  rw [Predicate.joinedTokens, Predicate.joinedPieces, List.flatMap_append, List.flatMap_cons]
  · rfl
  · simp

theorem joinedTokens_singleton (separator : String) (part : Predicate) :
    Predicate.joinedTokens separator [part] = part.tokens true := by
  rw [Predicate.joinedTokens, Predicate.joinedPieces, Predicate.tokens]

section

variable {word : String} {operand? : List Token → Option (Predicate × List Token)}

/-- Operands are read up to the first place where the word does not follow. -/
theorem operands?_joinedTokens {separator : String}
    (hseparator : fixedTokens separator = [.word word]) (stops : List Token → Prop)
    (hword : ∀ rest, stops (.word word :: rest)) {parts : List Predicate} (hne : parts ≠ [])
    (hoperand : ∀ part ∈ parts, ∀ rest, stops rest →
      operand? (part.tokens true ++ rest) = some (part, rest))
    {rest : List Token} (hstops : stops rest) (hrest : rest.head? ≠ some (.word word))
    (count : Nat) (hcount : parts.length ≤ count) :
    operands? word operand? count (Predicate.joinedTokens separator parts ++ rest) =
      some (parts, rest) := by
  induction parts generalizing count with
  | nil => exact absurd rfl hne
  | cons part parts ih =>
      cases count with
      | zero => simp at hcount
      | succ count =>
          cases parts with
          | nil =>
              have hpart := hoperand part (List.mem_singleton_self part) rest hstops
              rw [joinedTokens_singleton, operands?, hpart]
              simp [hrest]
          | cons second parts =>
              have hpart := hoperand part List.mem_cons_self
                (.word word :: (Predicate.joinedTokens separator (second :: parts) ++ rest))
                (hword _)
              have hlater := ih (List.cons_ne_nil second parts)
                (fun part hmem => hoperand part (List.mem_cons_of_mem _ hmem)) count
                (Nat.le_of_succ_le_succ hcount)
              rw [joinedTokens_cons_cons, hseparator, List.append_assoc, List.append_assoc,
                List.singleton_append, operands?, hpart]
              simp [hlater]

theorem tokens_nested_ne_nil (predicate : Predicate) : predicate.tokens true ≠ [] := by
  cases predicate <;> exact List.cons_ne_nil _ _

theorem length_joinedTokens_cons (separator : String) (part : Predicate)
    (rest : List Predicate) :
    (part.tokens true).length + (Predicate.joinedTokens separator rest).length ≤
      (Predicate.joinedTokens separator (part :: rest)).length := by
  cases rest with
  | nil =>
      rw [joinedTokens_singleton]
      exact Nat.le_refl _
  | cons second rest =>
      rw [joinedTokens_cons_cons, List.length_append, List.length_append]
      omega

theorem length_le_length_joinedTokens (separator : String) (parts : List Predicate) :
    parts.length ≤ (Predicate.joinedTokens separator parts).length := by
  induction parts with
  | nil => exact Nat.zero_le _
  | cons part rest ih =>
      have hcons := length_joinedTokens_cons separator part rest
      have hpart := List.length_pos_iff.mpr (tokens_nested_ne_nil part)
      rw [List.length_cons]
      omega

/-- A join of parts is read as such, with nothing left of the join around a single part. -/
theorem join?_joinedTokens {separator : String}
    (hseparator : fixedTokens separator = [.word word]) (stops : List Token → Prop)
    (hword : ∀ rest, stops (.word word :: rest)) {parts : List Predicate} (hne : parts ≠ [])
    (hoperand : ∀ part ∈ parts, ∀ rest, stops rest →
      operand? (part.tokens true ++ rest) = some (part, rest))
    (join : List Predicate → Predicate) {rest : List Token} (hstops : stops rest)
    (hrest : rest.head? ≠ some (.word word)) :
    join? word join operand? (Predicate.joinedTokens separator parts ++ rest) =
      some (Predicate.collapse join parts, rest) := by
  have hcount : parts.length ≤ (Predicate.joinedTokens separator parts ++ rest).length := by
    have hparts := length_le_length_joinedTokens separator parts
    rw [List.length_append]
    omega
  rw [join?, operands?_joinedTokens hseparator stops hword hne hoperand hstops hrest _ hcount]
  rfl

/-- What is read as an operand is read as a join of one part. -/
theorem join?_operand {tokens rest : List Token} {predicate : Predicate}
    (join : List Predicate → Predicate) (hne : tokens ≠ [])
    (hoperand : operand? tokens = some (predicate, rest))
    (hrest : rest.head? ≠ some (.word word)) :
    join? word join operand? tokens = some (predicate, rest) := by
  obtain ⟨token, tokens, rfl⟩ := List.exists_cons_of_ne_nil hne
  rw [join?, List.length_cons, operands?, hoperand]
  simp [hrest, Predicate.collapse]

/-- A conjunction of at least two parts is read as such. -/
theorem disjunction?_and {parts : List Predicate} (hparts : 2 ≤ parts.length)
    (hoperand : ∀ part ∈ parts, ∀ rest,
      operand? (part.tokens true ++ rest) = some (part, rest))
    {rest : List Token} (hand : rest.head? ≠ some (.word "AND"))
    (hor : rest.head? ≠ some (.word "OR")) :
    disjunction? operand? (Predicate.joinedTokens " AND " parts ++ rest) =
      some (.and parts, rest) := by
  have hne : parts ≠ [] := List.ne_nil_of_length_pos (by omega)
  have hseparator : fixedTokens " AND " = [.word "AND"] := rfl
  have hread := join?_joinedTokens hseparator (fun _ => True) (fun _ => trivial) hne
    (fun part hmem rest _ => hoperand part hmem rest) .and trivial hand
  have hcollapse : Predicate.collapse .and parts = .and parts := by
    match parts with
    | first :: second :: later => rfl
  have htokens : Predicate.joinedTokens " AND " parts ++ rest ≠ [] := by
    have hlength := length_le_length_joinedTokens " AND " parts
    apply List.ne_nil_of_length_pos
    rw [List.length_append]
    omega
  rw [disjunction?]
  apply join?_operand .or htokens _ hor
  rw [hread, hcollapse]

/-- A disjunction of at least two parts is read as such. -/
theorem disjunction?_or {parts : List Predicate} (hparts : 2 ≤ parts.length)
    (hoperand : ∀ part ∈ parts, ∀ rest,
      operand? (part.tokens true ++ rest) = some (part, rest))
    {rest : List Token} (hand : rest.head? ≠ some (.word "AND"))
    (hor : rest.head? ≠ some (.word "OR")) :
    disjunction? operand? (Predicate.joinedTokens " OR " parts ++ rest) =
      some (.or parts, rest) := by
  have hne : parts ≠ [] := List.ne_nil_of_length_pos (by omega)
  have hseparator : fixedTokens " OR " = [.word "OR"] := rfl
  -- Each part is a conjunction of one operand, since no `AND` follows it.
  have hconjunction : ∀ part ∈ parts, ∀ rest : List Token, rest.head? ≠ some (.word "AND") →
      join? "AND" .and operand? (part.tokens true ++ rest) = some (part, rest) := by
    intro part hmem rest hrest
    have htokens : part.tokens true ++ rest ≠ [] := by simp [tokens_nested_ne_nil]
    exact join?_operand .and htokens (hoperand part hmem rest) hrest
  have hcollapse : Predicate.collapse .or parts = .or parts := by
    match parts with
    | first :: second :: later => rfl
  rw [disjunction?, join?_joinedTokens hseparator (fun rest => rest.head? ≠ some (.word "AND"))
    (by simp) hne hconjunction .or hand hor, hcollapse]

/-- What is read as an operand is read as a disjunction of one part. -/
theorem disjunction?_operand {tokens rest : List Token} {predicate : Predicate}
    (hne : tokens ≠ []) (hoperand : operand? tokens = some (predicate, rest))
    (hand : rest.head? ≠ some (.word "AND")) (hor : rest.head? ≠ some (.word "OR")) :
    disjunction? operand? tokens = some (predicate, rest) :=
  join?_operand .or hne (join?_operand .and hne hoperand hand) hor

end

/-! ## Predicates are read as they are written -/

theorem operand?_parentheses {depth : Nat} {tokens rest : List Token} {predicate : Predicate}
    (hread : disjunction? (operand? depth) (tokens ++ .symbol ")" :: rest) =
      some (predicate, .symbol ")" :: rest)) :
    operand? (depth + 1) (.symbol "(" :: (tokens ++ .symbol ")" :: rest)) =
      some (predicate, rest) := by
  rw [operand?, hread]
  simp

theorem tokens_join (join : List Predicate → Predicate) (separator : String)
    (parts : List Predicate)
    (hpieces : (join parts).pieces true = enclose true (Predicate.joinedPieces separator parts)) :
    (join parts).tokens true =
      .symbol "(" :: (Predicate.joinedTokens separator parts ++ [.symbol ")"]) := by
  rw [Predicate.tokens, hpieces, enclose, if_pos rfl, List.flatMap_cons, List.flatMap_append,
    Predicate.joinedTokens]
  rfl

/-- A join is read as an operand when what stands in its parentheses is read as that join. -/
theorem operand?_join (join : List Predicate → Predicate) (separator : String)
    {parts : List Predicate}
    (hpieces : (join parts).pieces true = enclose true (Predicate.joinedPieces separator parts))
    {depth : Nat} {rest : List Token} (hdepth : ((join parts).tokens true).length ≤ depth)
    (hread : ∀ inner : Nat, (Predicate.joinedTokens separator parts).length ≤ inner →
      disjunction? (operand? inner)
          (Predicate.joinedTokens separator parts ++ .symbol ")" :: rest) =
        some (join parts, .symbol ")" :: rest)) :
    operand? depth ((join parts).tokens true ++ rest) = some (join parts, rest) := by
  rw [tokens_join join separator parts hpieces] at hdepth ⊢
  cases depth with
  | zero => simp at hdepth
  | succ depth =>
      have hinner : (Predicate.joinedTokens separator parts).length ≤ depth := by
        simp only [List.length_cons, List.length_append] at hdepth
        omega
      rw [List.cons_append, List.append_assoc]
      exact operand?_parentheses (hread depth hinner)

theorem operand?_of_length_le {predicate : Predicate} (hsingle : predicate.isCompound = false)
    (depth : Nat) (rest : List Token) (hdepth : (predicate.tokens true).length ≤ depth) :
    operand? depth (predicate.tokens true ++ rest) = some (predicate, rest) := by
  cases depth with
  | zero =>
      have hnil := List.eq_nil_of_length_eq_zero (Nat.le_zero.mp hdepth)
      exact absurd hnil (tokens_nested_ne_nil predicate)
  | succ depth => exact operand?_condition hsingle true depth rest

mutual

/-- A nested predicate is read as an operand, if the reader may nest as deep as it has tokens. -/
theorem operand?_tokens : ∀ predicate : Predicate, predicate.wellJoined →
    ∀ (depth : Nat) (rest : List Token), (predicate.tokens true).length ≤ depth →
      operand? depth (predicate.tokens true ++ rest) = some (predicate, rest)
  | .always, _ => operand?_of_length_le rfl
  | .compare _ _ _, _ => operand?_of_length_le rfl
  | .like _ _ _, _ => operand?_of_length_le rfl
  | .between _ _ _, _ => operand?_of_length_le rfl
  | .isNull _ _, _ => operand?_of_length_le rfl
  | .member _ _ _, _ => operand?_of_length_le rfl
  | .and parts, hjoined => by
      rw [Predicate.wellJoined, Bool.and_eq_true, decide_eq_true_eq] at hjoined
      intro depth rest hdepth
      apply operand?_join .and " AND " rfl hdepth
      intro inner hinner
      have hoperand := operand?_tokens_of_mem parts hjoined.2 " AND " inner hinner
      exact disjunction?_and hjoined.1 hoperand (by simp) (by simp)
  | .or parts, hjoined => by
      rw [Predicate.wellJoined, Bool.and_eq_true, decide_eq_true_eq] at hjoined
      intro depth rest hdepth
      apply operand?_join .or " OR " rfl hdepth
      intro inner hinner
      have hoperand := operand?_tokens_of_mem parts hjoined.2 " OR " inner hinner
      exact disjunction?_or hjoined.1 hoperand (by simp) (by simp)

/-- The parts of a join are read as operands. -/
theorem operand?_tokens_of_mem : ∀ parts : List Predicate, Predicate.allWellJoined parts →
    ∀ (separator : String) (depth : Nat),
      (Predicate.joinedTokens separator parts).length ≤ depth →
        ∀ part ∈ parts, ∀ rest : List Token,
          operand? depth (part.tokens true ++ rest) = some (part, rest)
  | [], _ => by simp
  | first :: later, hjoined => by
      rw [Predicate.allWellJoined, Bool.and_eq_true] at hjoined
      intro separator depth hdepth part hmem rest
      have hcons := length_joinedTokens_cons separator first later
      rcases List.mem_cons.mp hmem with hfirst | hlater
      · rw [hfirst]
        exact operand?_tokens first hjoined.1 depth rest (by omega)
      · exact operand?_tokens_of_mem later hjoined.2 separator depth (by omega)
          part hlater rest

end

/-- A predicate that no further part follows is read as it was written. -/
theorem disjunction?_tokens {predicate : Predicate} (hjoined : predicate.wellJoined) {depth : Nat}
    {rest : List Token} (hdepth : (predicate.tokens false).length ≤ depth)
    (hand : rest.head? ≠ some (.word "AND")) (hor : rest.head? ≠ some (.word "OR")) :
    disjunction? (operand? depth) (predicate.tokens false ++ rest) = some (predicate, rest) := by
  have hsingle : predicate.isCompound = false →
      predicate.tokens false = predicate.tokens true →
        disjunction? (operand? depth) (predicate.tokens false ++ rest) =
          some (predicate, rest) := by
    intro hsingle hsame
    rw [hsame] at hdepth ⊢
    have hne : predicate.tokens true ++ rest ≠ [] := by simp [tokens_nested_ne_nil]
    exact disjunction?_operand hne (operand?_of_length_le hsingle depth rest hdepth) hand hor
  cases predicate with
  | and parts =>
      rw [Predicate.wellJoined, Bool.and_eq_true, decide_eq_true_eq] at hjoined
      have hoperand := operand?_tokens_of_mem parts hjoined.2 " AND " depth hdepth
      exact disjunction?_and hjoined.1 hoperand hand hor
  | or parts =>
      rw [Predicate.wellJoined, Bool.and_eq_true, decide_eq_true_eq] at hjoined
      have hoperand := operand?_tokens_of_mem parts hjoined.2 " OR " depth hdepth
      exact disjunction?_or hjoined.1 hoperand hand hor
  | always => exact hsingle rfl rfl
  | compare _ _ _ => exact hsingle rfl rfl
  | like _ _ _ => exact hsingle rfl rfl
  | between _ _ _ => exact hsingle rfl rfl
  | isNull _ _ => exact hsingle rfl rfl
  | member _ _ _ => exact hsingle rfl rfl

/-! ## Plans are read as they are written -/

theorem table?_tokens (table : TableRef) (rest : List Token) :
    table? (table.pieces.flatMap Piece.tokens ++ .word "WHERE" :: rest) =
      some (table, .word "WHERE" :: rest) := by
  obtain ⟨schema, name⟩ := table
  cases schema with
  | none =>
      change table? (.ofName name :: .word "WHERE" :: rest) = _
      simp [table?, name?_ofName]
  | some schema =>
      change table? (.ofName schema :: .symbol "." :: .ofName name :: .word "WHERE" :: rest) = _
      simp [table?, name?_ofName]

theorem limit?_toString (limit : UInt32) : limit? (toString limit) = some limit := by
  have hsize : limit.toNat < UInt32.size := limit.toNat_lt_size
  rw [limit?, Plan.toList_limit, Nat.ofDigitChars_ten_toDigits, Numeral.all_isDigit_toDigits]
  simp [hsize]

theorem plan?_tokens {plan : Plan} (hjoined : plan.predicate.wellJoined) :
    plan? (plan.pieces.flatMap Piece.tokens) = some plan := by
  let tail : List Token := [.word "LIMIT", .number (toString plan.limit)]
  have htail : plan.tailPieces.flatMap Piece.tokens = tail := by
    simp [Plan.tailPieces, Piece.tokens, Plan.fixedTokens_limitText, tail]
  have htokens : plan.pieces.flatMap Piece.tokens =
      .word "SELECT" :: .symbol "*" :: .word "FROM" ::
        (plan.table.pieces.flatMap Piece.tokens
          ++ .word "WHERE" :: (plan.predicate.tokens false ++ tail)) := by
    rw [Plan.pieces, List.flatMap_append, List.flatMap_append, htail, Plan.headPieces,
      List.flatMap_cons, List.flatMap_append, List.append_assoc, List.append_assoc,
      List.append_assoc]
    rfl
  have hpredicate :
      disjunction? (operand? (.word "WHERE" :: (plan.predicate.tokens false ++ tail)).length)
        (plan.predicate.tokens false ++ tail) = some (plan.predicate, tail) := by
    apply disjunction?_tokens hjoined
    · rw [List.length_cons, List.length_append]
      omega
    · simp [tail]
    · simp [tail]
  rw [htokens, plan?, table?_tokens]
  simp only [Option.bind_eq_bind, Option.bind_some, List.head?_cons, ↓reduceIte, List.tail_cons,
    hpredicate]
  simp [tail, limit?_toString]

theorem read?_statement {plan : Plan} (hjoined : plan.predicate.wellJoined) (dialect : Dialect) :
    read? (plan.toQuery dialect).sql (plan.toQuery dialect).params = some plan := by
  obtain ⟨edge, hedges⟩ := plan.exists_edges?_pieces
  have hfill := fill?_tokensOf dialect hedges []
  rw [List.nil_append, List.length_nil, Nat.zero_add] at hfill
  change (do plan? (← fill? (parameters plan.pieces) 0 (← tokenize? (plan.toQuery dialect).sql)))
    = _
  simp only [plan.tokenize?_toQuery dialect, Option.bind_eq_bind, Option.bind_some, hfill,
    plan?_tokens hjoined]

end Reading

/-- A bound statement is read back as its plan, so plans that share the statement and the
parameters are equal, whatever dialects the statements are written in. -/
theorem Plan.read?_toQuery (plan : Plan) (hjoined : plan.predicate.wellJoined)
    (dialect : Dialect) :
    Reading.read? (plan.toQuery dialect).sql (plan.toQuery dialect).params = some plan ∧
      ∀ other : Plan, other.predicate.wellJoined → ∀ dialect' : Dialect,
        (other.toQuery dialect').sql = (plan.toQuery dialect).sql →
          (other.toQuery dialect').params = (plan.toQuery dialect).params → other = plan := by
  have hplan := Reading.read?_statement hjoined dialect
  refine ⟨hplan, ?_⟩
  intro other hother dialect' hsql hparams
  have hread := Reading.read?_statement hother dialect'
  rw [hsql, hparams, hplan, Option.some.injEq] at hread
  exact hread.symm

/-- A plan with quotes and words of the grammar as names, a range inside a conjunction and a
disjunction inside another one. -/
def Plan.awkward : Plan where
  table := { schema := some "a\"b", name := "WHERE" }
  predicate := .or
    [.and [.between "AND" (.int 3) (.text "$1"), .always],
      .or [.isNull "" true, .like "LIKE" "%?" true],
      .member "NOT" ⟨"SELECT", "x y", "\"", "OR"⟩ true]
  limit := 100

theorem Plan.read?_toQuery_awkward :
    Plan.awkward.predicate.wellJoined ∧
      Reading.read? (Plan.awkward.toQuery .positional).sql (Plan.awkward.toQuery .positional).params
        = some Plan.awkward :=
  ⟨by decide, (Plan.read?_toQuery Plan.awkward (by decide) .positional).1⟩

end Segmentation.Sql
