import Segmentation.Proofs.History
import Segmentation.Proofs.Revision.Baseline

/-!
# Restoring and saving

A draft is followed through events and through changes of its definition of any kind.
Its restore point is the definition of its start, and later the one that was last made the
restore point or kept by a store.  Discarding leads back to it in all restorable parts and
leaves the rest alone, and a second time it changes nothing.  Saving either changes nothing
at all or makes the record of the store the definition, the baseline and the restore point.
-/

namespace Segmentation.Draft

/-- Whether an action may set a restore point. -/
def Action.mayCommit : Action → Bool
  | .event .commit | .event (.save _) => true
  | _ => false

def discarded (draft : Draft) : Draft :=
  draft.act (.event .discard)

/-- Whether an action makes a definition the restore point; saving does so where it succeeds. -/
def setsRestorePoint (draft : Draft) : Action → Bool
  | .event .commit => true
  | .event (.save store) => (draft.revision.save store draft.definition).2.2.isOk
  | _ => false

/-- A run told apart at its last restore point. -/
def LastRestorePoint (initial : Draft) : List Action → List Action → Prop :=
  LastAt fun past action => (initial.acts past).setsRestorePoint action

variable {draft initial : Draft} {action : Action} {past later : List Action}

/-! ### What the restore point is -/

theorem restorePoint_act_of_sets (h : draft.setsRestorePoint action) :
    (draft.act action).revision.restorePoint = .of (draft.act action).definition := by
  cases action with
  | change f => contradiction
  | edit f => contradiction
  | event event =>
      have hset : draft.setsBaseline (.event event) := by
        cases event with
        | commit => rfl
        | save store => exact h
        | _ => contradiction
      exact (knows_act_of_setsBaseline hset).restorePoint

/-- Neither changes of the definition nor marks, discards and failing saves move the restore
point. -/
theorem restorePoint_act_of_not_sets (h : ¬ draft.setsRestorePoint action) :
    (draft.act action).revision.restorePoint = draft.revision.restorePoint := by
  cases action with
  | change f => rfl
  | edit f => rfl
  | event event =>
      cases event with
      | commit => exact absurd rfl h
      | save store =>
          obtain ⟨error, hsave⟩ := Revision.save_of_not_isOk h
          rw [act, step, hsave]
      | _ => rfl

/-- Throughout a run the restore point is the definition as it was when it was last set. -/
theorem LastRestorePoint.restorePoint
    (hinitial : initial.revision.restorePoint = .of initial.definition)
    (h : initial.LastRestorePoint past later) :
    (initial.acts (past ++ later)).revision.restorePoint = .of (initial.acts past).definition := by
  induction h with
  | empty => exact hinitial
  | set _ hset _ =>
      rw [List.append_nil, acts_concat]
      exact restorePoint_act_of_sets hset
  | keep _ hkeep ih =>
      rw [← List.append_assoc, acts_concat, restorePoint_act_of_not_sets hkeep]
      exact ih

theorem not_setsRestorePoint (h : ¬ action.mayCommit) : ¬ draft.setsRestorePoint action := by
  cases action with
  | change f => exact h
  | edit f => exact h
  | event event =>
      cases event with
      | commit => exact absurd rfl h
      | save store => exact absurd rfl h
      | _ => exact h

theorem restorePoint_acts_of_not_mayCommit {actions : List Action}
    (h : ∀ action ∈ actions, ¬ action.mayCommit) :
    (draft.acts actions).revision.restorePoint = draft.revision.restorePoint := by
  induction actions using List.reverseRecOn with
  | nil => rfl
  | append_singleton actions action ih =>
      obtain ⟨hactions, haction⟩ := List.forall_mem_append.1 h
      have hkeep : ¬ (draft.acts actions).setsRestorePoint action :=
        not_setsRestorePoint (haction action List.mem_cons_self)
      rw [acts_concat, restorePoint_act_of_not_sets hkeep, ih hactions]

/-! ### Discarding -/

/-- Discarding takes the restorable parts from the restore point, and the rest stays. -/
theorem definition_discarded {point : Definition} (h : draft.revision.restorePoint = .of point) :
    draft.discarded.definition =
      { point with
        dataset := draft.definition.dataset
        memberships := draft.definition.memberships } := by
  rw [discarded, act, step, Revision.discard, h]
  rfl

theorem descriptionVisible_discarded (draft : Draft) :
    draft.discarded.revision.descriptionVisible =
      (draft.revision.descriptionVisible && !draft.discarded.definition.description.isEmpty) := by
  rfl

theorem discarded_discarded (draft : Draft) : draft.discarded.discarded = draft.discarded := by
  simp [discarded, act, step, Revision.discard, RestorePoint.restore]

/-- After any run, discarding leads back to the last restore point, except for the dataset and
the memberships. -/
theorem discarded_acts (definition : Definition) (actions : List Action) :
    let draft := (start definition).acts actions
    (∃ past later, actions = past ++ later ∧ (start definition).LastRestorePoint past later ∧
      draft.discarded.definition =
        { ((start definition).acts past).definition with
          dataset := draft.definition.dataset
          memberships := draft.definition.memberships }) ∧
    draft.discarded.isDirty = false ∧
    draft.discarded.revision.descriptionVisible =
      (draft.revision.descriptionVisible && !draft.discarded.definition.description.isEmpty) ∧
    draft.discarded.discarded = draft.discarded := by
  intro draft
  obtain ⟨past, later, rfl, h⟩ := exists_lastAt _ actions
  have hstart : (start definition).revision.restorePoint = .of (start definition).definition := rfl
  have hpoint := LastRestorePoint.restorePoint hstart h
  exact ⟨⟨past, later, rfl, h, definition_discarded hpoint⟩, isDirty_act_of_setsBaseline rfl,
    descriptionVisible_discarded draft, discarded_discarded draft⟩

/-! ### Saving -/

/-- A save either changes nothing, for want of a name or by the refusal of the store, or it
takes over the record of the store, which is then clean, and to which discarding leads back
until another definition is made the restore point.  A definition without a name is not shown
to the store. -/
theorem save_allOrNothing (draft : Draft) (store : Store) :
    let saved := draft.revision.save store draft.definition
    (Text.trimmed draft.definition.name = "" ∧
        ∀ other, draft.revision.save other draft.definition =
          (draft.revision, draft.definition, .error .emptyName)) ∨
      (∃ error, Text.trimmed draft.definition.name ≠ "" ∧
        store draft.definition = .error error ∧
        saved = (draft.revision, draft.definition, .error error)) ∨
      ∃ record revision, Text.trimmed draft.definition.name ≠ "" ∧
        store draft.definition = .ok record ∧ saved = (revision, record, .ok ()) ∧
        revision.isDirty record = false ∧
        ∀ later : List Action, (∀ action ∈ later, ¬ action.mayCommit) →
          RestorePoint.of ((Draft.mk record revision).acts later).discarded.definition =
            .of record := by
  intro saved
  simp only [ne_eq, ← Text.isBlankText_iff]
  obtain ⟨hname, _⟩ | ⟨error, hname, hstore, hsave⟩ | ⟨record, hname, hstore, hsave⟩ :=
    draft.revision.save_cases store draft.definition
  · exact .inl ⟨hname, fun other => by rw [Revision.save, if_pos hname]⟩
  · exact .inr (.inl ⟨error, hname, hstore, hsave⟩)
  · refine .inr (.inr ⟨record, _, hname, hstore, hsave, ?_, ?_⟩)
    · have hcommit : (Draft.mk record draft.revision).setsBaseline (.event .commit) := rfl
      exact isDirty_act_of_setsBaseline hcommit
    · intro later hlater
      have hpoint : ((Draft.mk record (draft.revision.commit record)).acts
          later).revision.restorePoint = .of record := restorePoint_acts_of_not_mayCommit hlater
      rw [definition_discarded hpoint]
      rfl

/-- A store that is not available leaves the draft as it is. -/
example : let draft := start { name := "Hanoi" }
    draft.revision.save (fun _ => .error "unavailable") draft.definition =
      (draft.revision, draft.definition, .error (.backend "unavailable")) := by
  cbv

end Segmentation.Draft
