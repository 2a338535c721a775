import Segmentation.Definition

/-!
# Restore points

A restore point holds the restorable parts of a definition: its name, description,
connective, conditions and groups.  Memberships and the selected dataset are not
among them.
-/

namespace Segmentation

structure RestorePoint where
  name : String
  description : String
  connective : Connective
  conditions : List Condition
  groups : List Group
deriving DecidableEq

namespace RestorePoint

def of (definition : Definition) : RestorePoint where
  name := definition.name
  description := definition.description
  connective := definition.connective
  conditions := definition.conditions
  groups := definition.groups

/-- A definition with the restorable parts of a restore point. -/
def restore (point : RestorePoint) (definition : Definition) : Definition :=
  { definition with
    name := point.name
    description := point.description
    connective := point.connective
    conditions := point.conditions
    groups := point.groups }

/-- Whether a definition still has the parts of a restore point. -/
def agrees (point : RestorePoint) (definition : Definition) : Bool :=
  point = of definition

end RestorePoint

end Segmentation
