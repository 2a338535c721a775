import Segmentation.Proofs.History
import Segmentation.Revision

/-!
# Baselines of a draft

A draft is followed from its start through any events and through changes of its
definition of any kind.  Some of them set a new baseline: making the definition the
restore point, discarding, and saving with success.  A run is told apart at its last
baseline, and the main statement is that a draft is dirty exactly when it was marked
since then or its definition differs from that baseline elsewhere than in the selected
dataset.
-/

namespace Segmentation

/-- Saving stops at a blank name, at the refusal of the store, or with the record it keeps. -/
theorem Revision.save_cases (revision : Revision) (store : Store) (definition : Definition) :
    (Text.isBlankText definition.name ∧
        revision.save store definition = (revision, definition, .error .emptyName)) ∨
      (∃ error, ¬ Text.isBlankText definition.name ∧ store definition = .error error ∧
        revision.save store definition = (revision, definition, .error error)) ∨
      ∃ record, ¬ Text.isBlankText definition.name ∧ store definition = .ok record ∧
        revision.save store definition = (revision.commit record, record, .ok ()) := by
  rw [save]
  by_cases hname : Text.isBlankText definition.name
  · exact .inl ⟨hname, if_pos hname⟩
  · rw [if_neg hname]
    cases hstore : store definition with
    | error error => exact .inr (.inl ⟨error, hname, rfl, rfl⟩)
    | ok record => exact .inr (.inr ⟨record, hname, rfl, rfl⟩)

theorem Revision.save_of_isOk {revision : Revision} {store : Store} {definition : Definition}
    (h : (revision.save store definition).2.2.isOk) :
    ∃ record, revision.save store definition = (revision.commit record, record, .ok ()) := by
  obtain ⟨_, hsave⟩ | ⟨_, _, _, hsave⟩ | ⟨record, _, _, hsave⟩ :=
    revision.save_cases store definition
  · rw [hsave] at h
    contradiction
  · rw [hsave] at h
    contradiction
  · exact ⟨record, hsave⟩

/-- A save that fails leaves everything as it is. -/
theorem Revision.save_of_not_isOk {revision : Revision} {store : Store}
    {definition : Definition} (h : ¬ (revision.save store definition).2.2.isOk) :
    ∃ error, revision.save store definition = (revision, definition, .error error) := by
  obtain ⟨_, hsave⟩ | ⟨error, _, _, hsave⟩ | ⟨_, _, _, hsave⟩ :=
    revision.save_cases store definition
  · exact ⟨_, hsave⟩
  · exact ⟨error, hsave⟩
  · rw [hsave] at h
    exact absurd rfl h

/-- Whether a definition differs from another one elsewhere than in the selected dataset. -/
def Definition.DiffersFrom (definition baseline : Definition) : Prop :=
  { definition with dataset := baseline.dataset } ≠ baseline

namespace Draft

/-- An event, or a change of the definition of any kind. -/
inductive Action
  /-- A change made past the revision. -/
  | change (f : Definition → Definition)
  /-- A change made through the revision, which marks it. -/
  | edit (f : Definition → Definition)
  | event (event : Revision.Event)

/-- Whether an action marks the draft as changed, whatever it changes. -/
def Action.marks : Action → Bool
  | .edit _ | .event (.edit _) | .event .mark => true
  | _ => false

/-- The draft after an action. -/
def act (draft : Draft) : Action → Draft
  | .change f => { draft with definition := f draft.definition }
  | .edit f => { definition := f draft.definition, revision := draft.revision.mark }
  | .event event => draft.step event

/-- The draft after actions in order. -/
def acts (draft : Draft) (actions : List Action) : Draft :=
  actions.foldl act draft

/-- Whether an action sets a new baseline; saving does so where it succeeds. -/
def setsBaseline (draft : Draft) : Action → Bool
  | .event .commit | .event .discard => true
  | .event (.save store) => (draft.revision.save store draft.definition).2.2.isOk
  | _ => false

/-- A run told apart at its last baseline. -/
def LastBaseline (initial : Draft) : List Action → List Action → Prop :=
  LastAt fun past action => (initial.acts past).setsBaseline action

variable {draft initial : Draft} {action : Action} {past later : List Action}

theorem acts_concat (draft : Draft) (actions : List Action) (action : Action) :
    draft.acts (actions ++ [action]) = (draft.acts actions).act action := by
  rw [acts, List.foldl_append]
  rfl

/-! ### What a baseline is -/

/-- The revision knows a definition, and nothing is marked. -/
structure Knows (draft : Draft) (definition : Definition) (marked : Bool) : Prop where
  restorePoint : draft.revision.restorePoint = .of definition
  memberships : draft.revision.memberships = definition.memberships
  marked : draft.revision.marked = marked

/-- A new baseline is the definition as it then is. -/
theorem knows_act_of_setsBaseline (h : draft.setsBaseline action) :
    (draft.act action).Knows (draft.act action).definition false := by
  cases action with
  | change f => contradiction
  | edit f => contradiction
  | event event =>
      cases event with
      | commit => exact ⟨rfl, rfl, rfl⟩
      | discard => exact ⟨rfl, rfl, rfl⟩
      | save store =>
          obtain ⟨record, hsave⟩ := Revision.save_of_isOk h
          rw [act, step, hsave]
          exact ⟨rfl, rfl, rfl⟩
      | _ => contradiction

/-- Any other action leaves the baseline as it is, and at most marks. -/
theorem Knows.act {definition : Definition} {marked : Bool}
    (hknows : draft.Knows definition marked) (h : ¬ draft.setsBaseline action) :
    (draft.act action).Knows definition (marked || action.marks) := by
  obtain ⟨hpoint, hmemberships, rfl⟩ := hknows
  cases action with
  | change f => exact ⟨hpoint, hmemberships, (Bool.or_false _).symm⟩
  | edit f => exact ⟨hpoint, hmemberships, (Bool.or_true _).symm⟩
  | event event =>
      cases event with
      | change edit => exact ⟨hpoint, hmemberships, (Bool.or_false _).symm⟩
      | edit edits => exact ⟨hpoint, hmemberships, (Bool.or_true _).symm⟩
      | mark => exact ⟨hpoint, hmemberships, (Bool.or_true _).symm⟩
      | showDescription => exact ⟨hpoint, hmemberships, (Bool.or_false _).symm⟩
      | save store =>
          obtain ⟨error, hsave⟩ := Revision.save_of_not_isOk h
          rw [Draft.act, step, hsave]
          exact ⟨hpoint, hmemberships, (Bool.or_false _).symm⟩
      | commit => exact absurd rfl h
      | discard => exact absurd rfl h

/-- Throughout a run the revision knows the definition of the last baseline. -/
theorem LastBaseline.knows {definition : Definition}
    (h : (start definition).LastBaseline past later) :
    ((start definition).acts (past ++ later)).Knows ((start definition).acts past).definition
      (later.any Action.marks) := by
  induction h with
  | empty => exact ⟨rfl, rfl, rfl⟩
  | set h hset =>
      rw [List.append_nil, acts_concat]
      exact knows_act_of_setsBaseline hset
  | keep h hkeep ih =>
      rw [← List.append_assoc, acts_concat]
      simpa using ih.act hkeep

/-! ### Dirtiness -/

/-- The restorable parts and the memberships are all fields but the dataset. -/
theorem agrees_and_memberships_eq_iff (baseline definition : Definition) :
    (RestorePoint.of baseline).agrees definition ∧
        baseline.memberships = definition.memberships ↔
      ¬ definition.DiffersFrom baseline := by
  cases baseline
  cases definition
  simp only [RestorePoint.agrees, RestorePoint.of, RestorePoint.mk.injEq, decide_eq_true_eq,
    Definition.DiffersFrom, Definition.mk.injEq, Ne, not_not]
  grind

/-- A draft is dirty by its mark, or by a difference that the dataset does not make. -/
theorem Knows.isDirty_iff {definition : Definition} {marked : Bool}
    (h : draft.Knows definition marked) :
    draft.isDirty ↔ marked ∨ draft.definition.DiffersFrom definition := by
  rw [← not_not (a := draft.definition.DiffersFrom definition), ← agrees_and_memberships_eq_iff,
    isDirty, Revision.isDirty, h.restorePoint, h.memberships, h.marked, Bool.or_eq_true,
    Bool.or_eq_true, bne_iff_ne, Bool.not_eq_true', ← Bool.not_eq_true, or_assoc, not_and_or]

/-- Nothing is dirty at a baseline. -/
theorem isDirty_act_of_setsBaseline (h : draft.setsBaseline action) :
    (draft.act action).isDirty = false := by
  rw [← Bool.not_eq_true, (knows_act_of_setsBaseline h).isDirty_iff]
  rintro (hmarked | hdiffers)
  · contradiction
  · exact hdiffers rfl

/-- Every run has a last baseline, and is dirty exactly when an action since then marked it
or the definition differs from that baseline in another field than the dataset. -/
theorem isDirty_acts_iff (definition : Definition) (actions : List Action) :
    ∃ past later, actions = past ++ later ∧ (start definition).LastBaseline past later ∧
      (((start definition).acts actions).isDirty ↔
        (∃ action ∈ later, action.marks) ∨
        ((start definition).acts actions).definition.DiffersFrom
          ((start definition).acts past).definition) := by
  obtain ⟨past, later, rfl, h⟩ := exists_lastAt _ actions
  refine ⟨past, later, rfl, h, ?_⟩
  rw [(LastBaseline.knows h).isDirty_iff, List.any_eq_true]

/-- A draft whose dataset was changed since its start, and which nothing marked, is not dirty. -/
theorem isDirty_eq_false_of_selectDataset :
    let initial := start { name := "Hanoi" }
    let actions := [.event (.change (.selectDataset (some "customers")))]
    initial.LastBaseline [] actions ∧ (∀ action ∈ actions, ¬ action.marks) ∧
      (initial.acts actions).definition ≠ initial.definition ∧
      (initial.acts actions).isDirty = false := by
  refine ⟨.keep .empty ?_, ?_, ?_, ?_⟩ <;> decide

end Draft

end Segmentation
