import Segmentation.Group

/-!
# Segment definitions

A definition describes a segment of a dataset: conditions and groups joined by
the root connective, and memberships that hold in any case.
-/

namespace Segmentation

structure Definition where
  name : String
  description : String := ""
  dataset : Option String := none
  connective : Connective := .all
  conditions : List Condition := []
  groups : List Group := []
  memberships : Memberships := {}
deriving DecidableEq

namespace Definition

def activeConditions (definition : Definition) : List Condition :=
  definition.conditions.filter Condition.isActive

def activeGroups (definition : Definition) : List Group :=
  definition.groups.filter Group.hasActive

/-- The memberships in the groups, in the order they are written. -/
def groupMemberships (definition : Definition) : List (SegmentRef × MembershipMode) :=
  definition.groups.flatMap Group.memberships

/-- The memberships of the definition followed by those in its groups, each segment
once in each mode. -/
def allMemberships (definition : Definition) : Memberships :=
  definition.groupMemberships.foldl
    (fun memberships (segment, mode) => (memberships.add segment mode).1)
    definition.memberships

/-- Whether no part of the definition restricts the records. -/
def matchesEverything (definition : Definition) : Bool :=
  definition.activeConditions.isEmpty && definition.activeGroups.isEmpty
    && definition.memberships.isEmpty && definition.groupMemberships.isEmpty

end Definition

end Segmentation
