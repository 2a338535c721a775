/-!
# Memberships

A definition can ask that records are in other segments, or that they are not.
The two sets keep the order in which segments were added, and hold each segment
at most once by its identifier when they are built by `add`.
-/

namespace Segmentation

structure SegmentRef where
  id : String
  name : String
  count : UInt64
deriving DecidableEq, Inhabited

inductive MembershipMode
  | incl
  | excl
deriving DecidableEq

namespace MembershipMode

def name : MembershipMode → String
  | incl => "include"
  | excl => "exclude"

def named : List (String × MembershipMode) :=
  [incl, excl].map fun mode => (mode.name, mode)

def setName : MembershipMode → String
  | incl => "inclusions"
  | excl => "exclusions"

end MembershipMode

/-- What adding a segment came to. -/
inductive AddOutcome
  | added
  | alreadyPresent (mode : MembershipMode) (name : String)
deriving DecidableEq

namespace AddOutcome

def isAdded : AddOutcome → Bool
  | added => true
  | alreadyPresent .. => false

def describe : AddOutcome → String
  | added => "added"
  | alreadyPresent mode name => "segment '" ++ name ++ "' is already in " ++ mode.setName

/-- What the user is told: nothing if the segment was added. -/
def notice (outcome : AddOutcome) : Option String :=
  if outcome.isAdded then none else some outcome.describe

end AddOutcome

structure Memberships where
  inclusions : List SegmentRef := []
  exclusions : List SegmentRef := []
deriving DecidableEq, Inhabited

namespace Memberships

def get (memberships : Memberships) : MembershipMode → List SegmentRef
  | .incl => memberships.inclusions
  | .excl => memberships.exclusions

def set (memberships : Memberships) (segments : List SegmentRef) : MembershipMode → Memberships
  | .incl => { memberships with inclusions := segments }
  | .excl => { memberships with exclusions := segments }

def holds (segments : List SegmentRef) (id : String) : Bool :=
  segments.any fun segment => segment.id == id

/-- Adds a segment at the end of a set, unless its identifier is there already. -/
def add (memberships : Memberships) (segment : SegmentRef) (mode : MembershipMode) :
    Memberships × AddOutcome :=
  if holds (memberships.get mode) segment.id then
    (memberships, .alreadyPresent mode segment.name)
  else (memberships.set (memberships.get mode ++ [segment]) mode, .added)

/-- Removes every segment with an identifier from a set, and says whether there was one. -/
def remove (memberships : Memberships) (id : String) (mode : MembershipMode) :
    Memberships × Bool :=
  (memberships.set ((memberships.get mode).filter fun segment => segment.id != id) mode,
    holds (memberships.get mode) id)

def isEmpty (memberships : Memberships) : Bool :=
  memberships.inclusions.isEmpty && memberships.exclusions.isEmpty

/-- The segments with their modes, inclusions first. -/
def toList (memberships : Memberships) : List (SegmentRef × MembershipMode) :=
  memberships.inclusions.map (·, .incl) ++ memberships.exclusions.map (·, .excl)

end Memberships

/-- The segment picker: open for one of the two sets, or closed. -/
abbrev Picker := Option MembershipMode

namespace Picker

/-- The segments an open picker offers. -/
def candidates (picker : Picker) (catalog : List SegmentRef) : List SegmentRef :=
  if picker.isSome then catalog else []

/-- Adds a segment to the set the picker is open for. -/
def select (picker : Picker) (segment : SegmentRef) (memberships : Memberships) :
    Memberships × Option AddOutcome :=
  match picker with
  | none => (memberships, none)
  | some mode =>
    let (memberships, outcome) := memberships.add segment mode
    (memberships, some outcome)

end Picker

end Segmentation
