import Segmentation.Proofs.Sql.Fragments
import Segmentation.Proofs.Sql.Leaves

/-!
# Names in statements

A name is read as one identifier, whatever it holds, unless it is one of the words that
a statement is written with: such a name is plain, so it stands without quotes and is
read as that word.  What is read between the names stays the same when the names change.
-/

namespace Segmentation.Sql

/-! ## Keywords -/

/-- The words that a statement is written with. -/
def keywords : List String :=
  ["SELECT", "FROM", "WHERE", "LIMIT", "AND", "OR", "NOT", "IN", "IS", "NULL", "LIKE", "ESCAPE",
    "BETWEEN"]

def uppercase (text : String) : String :=
  String.ofList (text.toList.map Char.toUpper)

/-- Whether a text is one of the words in any letter case. -/
def isKeyword (text : String) : Bool :=
  keywords.contains (uppercase text)

/-- What a token is to the grammar.  A bare word is a keyword or an identifier. -/
inductive Role
  | keyword (word : String)
  | identifier (name : String)
  | other (token : Token)
deriving DecidableEq

namespace Role

def isIdentifier : Role → Bool
  | identifier _ => true
  | _ => false

/-- What a name is read as. -/
def ofName (name : String) : Role :=
  if isKeyword name then .keyword (uppercase name) else .identifier name

end Role

def Token.role : Token → Role
  | .word shown => if isKeyword shown then .keyword (uppercase shown) else .identifier shown
  | .name content => .identifier content
  | token => .other token

def roles? (text : String) : Option (List Role) :=
  (tokenize? text).map fun tokens => tokens.map Token.role

theorem isAlpha_of_isUpper_toUpper {c : Char} (h : c.toUpper.isUpper) : c.isAlpha := by
  by_cases hlower : 'a'.val ≤ c.val ∧ c.val ≤ 'z'.val
  · have hletter : c.isLower := by simpa [Char.isLower] using hlower
    rw [Char.isAlpha, hletter, Bool.or_true]
  · rw [Char.toUpper, dif_neg hlower] at h
    simp [Char.isAlpha, h]

/-- A keyword is a plain name, so it is written without quotes. -/
theorem isPlainName_of_isKeyword {name : String} (h : isKeyword name) :
    isPlainName name.toList := by
  have hwords : keywords.all fun word => !word.toList.isEmpty && word.toList.all Char.isUpper := rfl
  have hword := List.all_eq_true.1 hwords (uppercase name) (List.contains_iff_mem.1 h)
  rw [uppercase, String.toList_ofList, Bool.and_eq_true, List.all_map, List.all_eq_true] at hword
  obtain ⟨hne, hupper⟩ := hword
  have hletter : ∀ c ∈ name.toList, c.isAlpha := fun c hc =>
    isAlpha_of_isUpper_toUpper (hupper c hc)
  cases hname : name.toList with
  | nil => simp [hname] at hne
  | cons first rest =>
      rw [hname, List.forall_mem_cons] at hletter
      have hrest : rest.all isNameRest := List.all_eq_true.2 fun c hc => by
        simp [isNameRest, Char.isAlphanum, hletter.2 c hc]
      simp [isPlainName, isNameStart, hletter.1, hrest]

theorem role_ofName (name : String) : (Token.ofName name).role = .ofName name := by
  rw [Token.ofName]
  split
  · rfl
  · next hplain =>
      have hkeyword : isKeyword name = false :=
        Bool.eq_false_iff.2 fun h => hplain (isPlainName_of_isKeyword h)
      rw [Role.ofName, hkeyword]
      rfl

/-! ## Frames -/

/-- What is read between the names of pieces, from one name to the next. -/
def frames (dialect : Dialect) : Nat → List Piece → List (List Role)
  | _, [] => [[]]
  | index, .name _ :: rest => [] :: frames dialect index rest
  | index, .fixed text :: rest =>
    (frames dialect index rest).modifyHead ((fixedTokens text).map Token.role ++ ·)
  | index, .value _ :: rest =>
    (frames dialect (index + 1) rest).modifyHead (.other (.ofPlaceholder dialect index) :: ·)

theorem length_frames (dialect : Dialect) (index : Nat) (pieces : List Piece) :
    (frames dialect index pieces).length = (pieces.filterMap Piece.name?).length + 1 := by
  induction pieces generalizing index with
  | nil => rfl
  | cons piece rest ih =>
      cases piece with
      | name name => exact congrArg Nat.succ (ih index)
      | fixed text => exact List.length_modifyHead.trans (ih index)
      | value bound => exact List.length_modifyHead.trans (ih (index + 1))

theorem exists_frames_eq_cons (dialect : Dialect) (index : Nat) (pieces : List Piece) :
    ∃ first later, frames dialect index pieces = first :: later :=
  List.exists_cons_of_length_eq_add_one (length_frames dialect index pieces)

/-- The tokens of pieces are read as their frames with each name between them. -/
theorem map_role_tokensOf (dialect : Dialect) (index : Nat) (pieces : List Piece) :
    (tokensOf (fun index _ => .ofPlaceholder dialect index) index pieces).map Token.role =
      ((frames dialect index pieces).interleave
        ((pieces.filterMap Piece.name?).map fun name => [Role.ofName name])).flatten := by
  induction pieces generalizing index with
  | nil => simp [tokensOf, frames]
  | cons piece rest ih =>
      cases piece with
      | name name =>
          have hname : (Piece.name name).name? = some name := rfl
          simp [tokensOf, frames, ih, hname, role_ofName]
      | fixed text =>
          obtain ⟨first, later, hframes⟩ := exists_frames_eq_cons dialect index rest
          have hfixed : (Piece.fixed text).name? = none := rfl
          simp [tokensOf, frames, ih, hfixed, hframes]
      | value bound =>
          obtain ⟨first, later, hframes⟩ := exists_frames_eq_cons dialect (index + 1) rest
          have hvalue : (Piece.value bound).name? = none := rfl
          have hmark : (Token.ofPlaceholder dialect index).role =
              .other (.ofPlaceholder dialect index) := by cases dialect <;> rfl
          simp [tokensOf, frames, ih, hvalue, hframes, hmark]

/-- Only a name is read as an identifier. -/
theorem isIdentifier_frames (dialect : Dialect) (index : Nat) {pieces : List Piece}
    (h : ∀ text, .fixed text ∈ pieces →
      (fixedTokens text).any (fun token => token.role.isIdentifier) = false) :
    (frames dialect index pieces).flatten.any Role.isIdentifier = false := by
  induction pieces generalizing index with
  | nil => rfl
  | cons piece rest ih =>
      have hrest := fun index => ih index fun text hmem => h text (List.mem_cons_of_mem piece hmem)
      cases piece with
      | name name => exact hrest index
      | fixed text =>
          obtain ⟨first, later, hframes⟩ := exists_frames_eq_cons dialect index rest
          have hlater := hrest index
          have htext := h text List.mem_cons_self
          rw [hframes] at hlater
          rw [frames, hframes, List.modifyHead_cons, List.flatten_cons, List.append_assoc,
            List.any_append, List.any_map, ← List.flatten_cons, hlater, Bool.or_false]
          exact htext
      | value bound =>
          obtain ⟨first, later, hframes⟩ := exists_frames_eq_cons dialect (index + 1) rest
          have hlater := hrest (index + 1)
          rw [hframes] at hlater
          rw [frames, hframes]
          exact hlater

/-! ## Renaming -/

def Piece.rename (f : String → String) : Piece → Piece
  | .name text => .name (f text)
  | piece => piece

theorem frames_map_rename (f : String → String) (dialect : Dialect) (index : Nat)
    (pieces : List Piece) :
    frames dialect index (pieces.map (Piece.rename f)) = frames dialect index pieces := by
  induction pieces generalizing index with
  | nil => rfl
  | cons piece rest ih =>
      cases piece with
      | name name => exact congrArg ([] :: ·) (ih index)
      | fixed text => exact congrArg (List.modifyHead _) (ih index)
      | value bound => exact congrArg (List.modifyHead _) (ih (index + 1))

theorem filterMap_name?_map_rename (f : String → String) (pieces : List Piece) :
    (pieces.map (Piece.rename f)).filterMap Piece.name? =
      (pieces.filterMap Piece.name?).map f := by
  rw [List.filterMap_map, List.map_filterMap]
  congr 1
  funext piece
  cases piece <;> rfl

namespace Predicate

mutual

/-- A predicate with every name replaced. -/
def rename (f : String → String) : Predicate → Predicate
  | .always => .always
  | .compare column comparison value => .compare (f column) comparison value
  | .like column pattern negated => .like (f column) pattern negated
  | .between column low high => .between (f column) low high
  | .isNull column negated => .isNull (f column) negated
  | .member key lookup negated =>
    .member (f key)
      { lookup with
        table := f lookup.table
        segmentColumn := f lookup.segmentColumn
        keyColumn := f lookup.keyColumn }
      negated
  | .and parts => .and (renames f parts)
  | .or parts => .or (renames f parts)

def renames (f : String → String) : List Predicate → List Predicate
  | [] => []
  | part :: rest => part.rename f :: renames f rest

end

theorem renames_eq_map (f : String → String) (parts : List Predicate) :
    renames f parts = parts.map (rename f) := by
  induction parts with
  | nil => rfl
  | cons part rest ih => rw [renames, List.map_cons, ih]

theorem edits_rename (f : String → String) : Edits (rename f) (Piece.rename f) where
  fixed _ := rfl
  and parts := by rw [rename, renames_eq_map]
  or parts := by rw [rename, renames_eq_map]
  leaf predicate nested hleaf := by
    cases predicate with
    | and parts => contradiction
    | or parts => contradiction
    | _ => rfl

end Predicate

/-! ## Names of plans -/

namespace Plan

/-- The names in a plan, in the order in which they are written. -/
def names (plan : Plan) : List String :=
  plan.table.schema.toList ++ plan.table.name :: plan.predicate.leaves.flatMap Predicate.names

/-- A plan with every name replaced. -/
def rename (f : String → String) (plan : Plan) : Plan :=
  { plan with
    table := { schema := plan.table.schema.map f, name := f plan.table.name }
    predicate := plan.predicate.rename f }

/-- What is read between the names of a statement. -/
def frames (plan : Plan) (dialect : Dialect) : List (List Role) :=
  Sql.frames dialect 1 plan.pieces

theorem filterMap_name?_pieces (plan : Plan) :
    plan.pieces.filterMap Piece.name? = plan.names := by
  have hhead : plan.headPieces.filterMap Piece.name? =
      plan.table.schema.toList ++ [plan.table.name] := by
    obtain ⟨⟨schema, name⟩, predicate, limit⟩ := plan
    cases schema <;> rfl
  have htail : plan.tailPieces.filterMap Piece.name? = [] := rfl
  rw [pieces, List.filterMap_append, List.filterMap_append, hhead, htail, predicatePieces,
    Predicate.shows_names.filterMap_pieces, List.append_nil, List.append_assoc]
  rfl

theorem pieces_rename (f : String → String) (plan : Plan) :
    (plan.rename f).pieces = plan.pieces.map (Piece.rename f) := by
  have hhead : (plan.rename f).headPieces = plan.headPieces.map (Piece.rename f) := by
    obtain ⟨⟨schema, name⟩, predicate, limit⟩ := plan
    cases schema <;> rfl
  have hpredicate : (plan.rename f).predicatePieces =
      plan.predicatePieces.map (Piece.rename f) :=
    (Predicate.edits_rename f).pieces_eq_map false plan.predicate
  rw [pieces, pieces, List.map_append, List.map_append, hhead, hpredicate]
  rfl

/-- The fixed texts of a statement have no words but keywords. -/
theorem isIdentifier_fixed {plan : Plan} {text : String} (h : .fixed text ∈ plan.pieces) :
    (fixedTokens text).any (fun token => token.role.isIdentifier) = false := by
  obtain hmem | rfl := mem_fixedTexts_of_mem_pieces h
  · have hall : fixedTexts.all fun text =>
        !(fixedTokens text).any fun token => token.role.isIdentifier := by decide
    rw [← Bool.not_eq_true']
    exact List.all_eq_true.1 hall text hmem
  · rw [fixedTokens_limitText]
    rfl

/-- A name that is not a keyword is read as one identifier with that name, and one that is
a keyword as that word.  Between the names no identifier is read, and nothing that is read
there depends on the names. -/
theorem roles?_toQuery (plan : Plan) (dialect : Dialect) :
    roles? (plan.toQuery dialect).sql =
        some ((plan.frames dialect).interleave
          (plan.names.map fun name => [Role.ofName name])).flatten ∧
      (plan.frames dialect).length = plan.names.length + 1 ∧
      (plan.frames dialect).flatten.any Role.isIdentifier = false ∧
      ∀ f : String → String, (plan.rename f).frames dialect = plan.frames dialect ∧
        (plan.rename f).names = plan.names.map f := by
  refine ⟨?_, ?_, ?_, ?_⟩
  · rw [roles?, tokenize?_toQuery, Option.map_some, map_role_tokensOf, filterMap_name?_pieces]
    rfl
  · rw [frames, length_frames, filterMap_name?_pieces]
  · exact isIdentifier_frames dialect 1 fun _ => isIdentifier_fixed
  · intro f
    constructor
    · rw [frames, pieces_rename, frames_map_rename, frames]
    · rw [← filterMap_name?_pieces, pieces_rename, filterMap_name?_map_rename,
        filterMap_name?_pieces]

/-- A plan with the name of a column that is a keyword. -/
def limitColumn : Plan where
  table := { schema := none, name := "customers" }
  predicate := .compare "limit" .eq (.int 1)
  limit := 100

/-- The name of the column is not read as an identifier, and a keyword is read that is not
there when the names are others. -/
theorem roles?_limitColumn :
    "limit" ∈ limitColumn.names ∧
      ∃ roles others, roles? (limitColumn.toQuery .postgres).sql = some roles ∧
        roles? ((limitColumn.rename fun _ => "name").toQuery .postgres).sql = some others ∧
        .identifier "limit" ∉ roles ∧
        roles.count (.keyword "LIMIT") = 2 ∧ others.count (.keyword "LIMIT") = 1 := by
  refine ⟨by decide, _, _, rfl, rfl, ?_⟩
  decide

end Plan

end Segmentation.Sql
