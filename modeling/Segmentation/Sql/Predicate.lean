import Segmentation.Sql.Value

/-!
# Predicates

The conditions of a statement.  `all` and `any` join predicates and leave no
trivial join behind: none for no part, none for one part, and no part that is
always true.
-/

namespace Segmentation.Sql

inductive Comparison
  | eq
  | neq
  | gt
  | lt
deriving DecidableEq

namespace Comparison

def symbol : Comparison → String
  | eq => "="
  | neq => "!="
  | gt => ">"
  | lt => "<"

end Comparison

/-- The table in which the members of segments are listed, and one segment of it. -/
structure MemberLookup where
  table : String
  segmentColumn : String
  keyColumn : String
  segmentId : String
deriving DecidableEq

inductive Predicate
  | always
  | compare (column : String) (comparison : Comparison) (value : Value)
  | like (column : String) (pattern : String) (negated : Bool)
  | between (column : String) (low high : Value)
  | isNull (column : String) (negated : Bool)
  | member (key : String) (lookup : MemberLookup) (negated : Bool)
  | and (parts : List Predicate)
  | or (parts : List Predicate)
deriving Inhabited

namespace Predicate

def isAlways : Predicate → Bool
  | always => true
  | _ => false

def isCompound : Predicate → Bool
  | and _ | or _ => true
  | _ => false

/-- A join of parts by a constructor, which is not used for less than two parts. -/
def collapse (join : List Predicate → Predicate) : List Predicate → Predicate
  | [] => always
  | [part] => part
  | parts => join parts

/-- The predicate that holds where all parts hold. -/
def all (parts : List Predicate) : Predicate :=
  collapse and (parts.filter fun part => !part.isAlways)

/-- The predicate that holds where some part holds; without parts it always holds. -/
def any (parts : List Predicate) : Predicate :=
  if parts.any isAlways then always else collapse or parts

end Predicate

end Segmentation.Sql
