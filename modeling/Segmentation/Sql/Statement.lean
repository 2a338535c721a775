import Segmentation.Sql.Plan

/-!
# Statements

A statement is a sequence of pieces: fixed text, names and values.  Every
written form of it is a view of the same pieces.  The bound form puts a
placeholder where a value stands, the inline form its literal, and the
parameters are the values in order.
-/

namespace Segmentation.Sql

inductive Dialect
  | postgres
  | positional
deriving DecidableEq, Inhabited

namespace Dialect

def name : Dialect → String
  | postgres => "postgres"
  | positional => "positional"

def named : List (String × Dialect) :=
  [postgres, positional].map fun dialect => (dialect.name, dialect)

/-- The placeholder of the parameter at a place, counted from one. -/
def placeholder : Dialect → Nat → String
  | postgres, index => "$" ++ toString index
  | positional, _ => "?"

end Dialect

/-! ## Names -/

def isNameStart (c : Char) : Bool :=
  c.isAlpha || c = '_'

def isNameRest (c : Char) : Bool :=
  c.isAlphanum || c = '_'

/-- Names that are written as they are. -/
def isPlainName : List Char → Bool
  | [] => false
  | c :: rest => isNameStart c && rest.all isNameRest

/-- A name as it stands in a statement: between double quotes unless it is plain. -/
def identifier (name : String) : String :=
  if isPlainName name.toList then name
  else String.ofList ('"' :: (Value.doubleQuotes '"' name.toList ++ ['"']))

/-! ## Pieces -/

inductive Piece
  | fixed (text : String)
  | name (name : String)
  | value (value : Value)
deriving DecidableEq

namespace Piece

def inlineText : Piece → String
  | .fixed text => text
  | .name text => identifier text
  | .value bound => bound.literal

def value? : Piece → Option Value
  | .value bound => some bound
  | _ => none

end Piece

def inlineText : List Piece → String
  | [] => ""
  | piece :: rest => piece.inlineText ++ inlineText rest

/-- The bound form of pieces, where `index` is the place of the first value. -/
def boundText (dialect : Dialect) : Nat → List Piece → String
  | _, [] => ""
  | index, .value _ :: rest => dialect.placeholder index ++ boundText dialect (index + 1) rest
  | index, piece :: rest => piece.inlineText ++ boundText dialect index rest

def parameters (pieces : List Piece) : List Value :=
  pieces.filterMap Piece.value?

/-! ## Plans as pieces -/

def enclose (nested : Bool) (pieces : List Piece) : List Piece :=
  if nested then .fixed "(" :: (pieces ++ [.fixed ")"]) else pieces

namespace Predicate

mutual

/-- The pieces of a predicate.  A join inside another one stands in parentheses. -/
def pieces (nested : Bool) : Predicate → List Piece
  | .always => [.fixed "1=1"]
  | .compare column comparison value =>
    [.name column, .fixed (" " ++ comparison.symbol ++ " "), .value value]
  | .like column pattern negated =>
    [.name column, .fixed (if negated then " NOT LIKE " else " LIKE "),
      .value (.text pattern), .fixed " ESCAPE '\\'"]
  | .between column low high =>
    [.name column, .fixed " BETWEEN ", .value low, .fixed " AND ", .value high]
  | .isNull column negated =>
    [.name column, .fixed (if negated then " IS NOT NULL" else " IS NULL")]
  | .member key lookup negated =>
    [.name key, .fixed (if negated then " NOT IN " else " IN "), .fixed "(SELECT ",
      .name lookup.keyColumn, .fixed " FROM ", .name lookup.table, .fixed " WHERE ",
      .name lookup.segmentColumn, .fixed " = ", .value (.text lookup.segmentId), .fixed ")"]
  | .and parts => enclose nested (joinedPieces " AND " parts)
  | .or parts => enclose nested (joinedPieces " OR " parts)

def joinedPieces (separator : String) : List Predicate → List Piece
  | [] => []
  | [part] => part.pieces true
  | part :: rest => part.pieces true ++ .fixed separator :: joinedPieces separator rest

end

end Predicate

def TableRef.pieces (table : TableRef) : List Piece :=
  match table.schema with
  | none => [.name table.name]
  | some schema => [.name schema, .fixed ".", .name table.name]

namespace Plan

/-- What stands before the predicate. -/
def headPieces (plan : Plan) : List Piece :=
  .fixed "SELECT * FROM " :: (plan.table.pieces ++ [.fixed " WHERE "])

def predicatePieces (plan : Plan) : List Piece :=
  plan.predicate.pieces false

/-- What stands after the predicate. -/
def tailPieces (plan : Plan) : List Piece :=
  [.fixed (" LIMIT " ++ toString plan.limit)]

def pieces (plan : Plan) : List Piece :=
  plan.headPieces ++ plan.predicatePieces ++ plan.tailPieces

end Plan

end Segmentation.Sql
