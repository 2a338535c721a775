import Segmentation.Edit
import Segmentation.Text.Blank

/-!
# Revisions

A revision follows the editing of a definition.  It holds the restore point to
which edits can be discarded, knows whether anything changed since the last
baseline, and saves to a store.  Memberships and the selected dataset are not
part of the restore point.
-/

namespace Segmentation

inductive StoreError
  | emptyName
  | backend (message : String)
deriving DecidableEq

namespace StoreError

def message : StoreError → String
  | emptyName => "segment name must not be empty"
  | backend message => "save failed: " ++ message

end StoreError

/-- A store that gives no more than a message has refused with it. -/
instance : Coe String StoreError where
  coe := .backend

/-- What a store answers to a definition: the record it keeps, or why it refuses. -/
abbrev Store := Definition → Except StoreError Definition

structure Revision where
  /-- Where discarding leads back to. -/
  restorePoint : RestorePoint
  /-- The memberships at the last baseline. -/
  memberships : Memberships
  /-- Whether the definition was marked as changed since the last baseline. -/
  marked : Bool
  descriptionVisible : Bool
deriving DecidableEq

namespace Revision

def start (definition : Definition) : Revision where
  restorePoint := .of definition
  memberships := definition.memberships
  marked := false
  descriptionVisible := !definition.description.isEmpty

/-- Makes a definition the restore point and the baseline. -/
def commit (revision : Revision) (definition : Definition) : Revision :=
  { revision with
    restorePoint := .of definition
    memberships := definition.memberships
    marked := false }

def mark (revision : Revision) : Revision :=
  { revision with marked := true }

def isDirty (revision : Revision) (definition : Definition) : Bool :=
  revision.marked || !revision.restorePoint.agrees definition
    || revision.memberships != definition.memberships

/-- Takes a definition back to the restore point.  Its memberships stay and become
the baseline. -/
def discard (revision : Revision) (definition : Definition) : Revision × Definition :=
  let restored := revision.restorePoint.restore definition
  ({ revision with
      memberships := restored.memberships
      marked := false
      descriptionVisible :=
        revision.descriptionVisible && !revision.restorePoint.description.isEmpty },
    restored)

def showDescription (revision : Revision) : Revision :=
  { revision with descriptionVisible := true }

/-- Saves a definition that has a name; the record that the store keeps becomes the
definition and its restore point. -/
def save (revision : Revision) (store : Store) (definition : Definition) :
    Revision × Definition × Except StoreError Unit :=
  if Text.isBlankText definition.name then (revision, definition, .error .emptyName)
  else match store definition with
    | .error error => (revision, definition, .error error)
    | .ok record => (revision.commit record, record, .ok ())

end Revision

/-- What can happen while a definition is edited. -/
inductive Revision.Event
  /-- A change made past the revision. -/
  | change (edit : Definition.Edit)
  /-- Changes made through the revision, which marks them. -/
  | edit (edits : List Definition.Edit)
  | mark
  | commit
  | discard
  | showDescription
  | save (store : Store)

/-- A definition and the revision that follows it. -/
structure Draft where
  definition : Definition
  revision : Revision

namespace Draft

def start (definition : Definition) : Draft where
  definition := definition
  revision := .start definition

def isDirty (draft : Draft) : Bool :=
  draft.revision.isDirty draft.definition

/-- The draft after an event. -/
def step (draft : Draft) : Revision.Event → Draft
  | .change edit => { draft with definition := (draft.definition.edit edit).1 }
  | .edit edits =>
    { definition := (draft.definition.editAll edits).1
      revision := draft.revision.mark }
  | .mark => { draft with revision := draft.revision.mark }
  | .commit => { draft with revision := draft.revision.commit draft.definition }
  | .discard =>
    let (revision, definition) := draft.revision.discard draft.definition
    { definition, revision }
  | .showDescription => { draft with revision := draft.revision.showDescription }
  | .save store =>
    let (revision, definition, _) := draft.revision.save store draft.definition
    { definition, revision }

end Draft

end Segmentation
