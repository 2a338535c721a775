import Segmentation.Condition
import Segmentation.Membership

/-!
# Condition groups

A group joins its children by one connective.  Children are conditions, groups
and memberships, nested to any depth.  A membership in a group is not one of the
things joined: it applies to the definition as a whole.
-/

namespace Segmentation

inductive Connective
  | all
  | any
deriving DecidableEq, Inhabited

namespace Connective

def name : Connective → String
  | all => "AND"
  | any => "OR"

def named : List (String × Connective) :=
  [all, any].map fun connective => (connective.name, connective)

end Connective

inductive Node
  | condition (condition : Condition)
  | group (connective : Connective) (children : List Node)
  | membership (segment : SegmentRef) (mode : MembershipMode)
deriving Inhabited

structure Group where
  connective : Connective := .all
  children : List Node := []

namespace Node

mutual

/-- Whether a child takes part in what its group means. -/
def isActive : Node → Bool
  | .condition c => c.isActive
  | .group _ children => anyActive children
  | .membership _ _ => false

def anyActive : List Node → Bool
  | [] => false
  | node :: rest => node.isActive || anyActive rest

end

mutual

/-- The memberships in a node, in the order they are written. -/
def memberships : Node → List (SegmentRef × MembershipMode)
  | .condition _ => []
  | .group _ children => allMemberships children
  | .membership segment mode => [(segment, mode)]

def allMemberships : List Node → List (SegmentRef × MembershipMode)
  | [] => []
  | node :: rest => node.memberships ++ allMemberships rest

end

theorem anyActive_eq_any (nodes : List Node) : anyActive nodes = nodes.any isActive := by
  induction nodes with
  | nil => rfl
  | cons node rest ih => simp [anyActive, ih]

theorem allMemberships_eq_flatMap (nodes : List Node) :
    allMemberships nodes = nodes.flatMap memberships := by
  induction nodes with
  | nil => rfl
  | cons node rest ih => simp [allMemberships, ih]

mutual

def decEq : (left right : Node) → Decidable (left = right)
  | .condition left, .condition right =>
    if h : left = right then isTrue (h ▸ rfl) else isFalse fun e => h (Node.condition.inj e)
  | .group left lefts, .group right rights =>
    if h : left = right then
      match decEqList lefts rights with
      | isTrue hs => isTrue (h ▸ hs ▸ rfl)
      | isFalse hs => isFalse fun e => hs (Node.group.inj e).2
    else isFalse fun e => h (Node.group.inj e).1
  | .membership left mode, .membership right mode' =>
    if h : left = right ∧ mode = mode' then isTrue (h.1 ▸ h.2 ▸ rfl)
    else isFalse fun e => h (Node.membership.inj e)
  | .condition _, .group _ _ => isFalse nofun
  | .condition _, .membership _ _ => isFalse nofun
  | .group _ _, .condition _ => isFalse nofun
  | .group _ _, .membership _ _ => isFalse nofun
  | .membership _ _, .condition _ => isFalse nofun
  | .membership _ _, .group _ _ => isFalse nofun

def decEqList : (lefts rights : List Node) → Decidable (lefts = rights)
  | [], [] => isTrue rfl
  | [], _ :: _ => isFalse nofun
  | _ :: _, [] => isFalse nofun
  | left :: lefts, right :: rights =>
    match decEq left right with
    | isFalse h => isFalse fun e => h (List.cons.inj e).1
    | isTrue h =>
      match decEqList lefts rights with
      | isTrue hs => isTrue (h ▸ hs ▸ rfl)
      | isFalse hs => isFalse fun e => hs (List.cons.inj e).2

end

instance : DecidableEq Node := decEq

end Node

deriving instance DecidableEq for Group

namespace Group

def toNode (group : Group) : Node :=
  .group group.connective group.children

/-- Whether some condition in the group, at any depth, is active. -/
def hasActive (group : Group) : Bool :=
  Node.anyActive group.children

/-- The memberships in the group, at any depth, in the order they are written. -/
def memberships (group : Group) : List (SegmentRef × MembershipMode) :=
  Node.allMemberships group.children

end Group

end Segmentation
