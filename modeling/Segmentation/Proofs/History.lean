import Mathlib.Data.List.Induction

/-!
# Last events

A history is told apart at the last of its events that has some property.  Whether an
event has it may depend on what happened before.  Every history can be told apart in this
way, and in one way only.
-/

namespace Segmentation

variable {α : Type} {marks : List α → α → Prop} {past later past' later' : List α}

/-- A history told apart at its last marking event: `past` is empty or ends with it, and no
event of `later` is one. -/
inductive LastAt (marks : List α → α → Prop) : List α → List α → Prop
  | empty : LastAt marks [] []
  | set {past later : List α} {event : α} (h : LastAt marks past later)
      (hset : marks (past ++ later) event) : LastAt marks (past ++ later ++ [event]) []
  | keep {past later : List α} {event : α} (h : LastAt marks past later)
      (hkeep : ¬ marks (past ++ later) event) : LastAt marks past (later ++ [event])

theorem exists_lastAt (marks : List α → α → Prop) (events : List α) :
    ∃ past later, events = past ++ later ∧ LastAt marks past later := by
  induction events using List.reverseRecOn with
  | nil => exact ⟨[], [], rfl, .empty⟩
  | append_singleton events event ih =>
      obtain ⟨past, later, rfl, h⟩ := ih
      by_cases hset : marks (past ++ later) event
      · exact ⟨past ++ later ++ [event], [], (List.append_nil _).symm, .set h hset⟩
      · exact ⟨past, later ++ [event], List.append_assoc .., .keep h hset⟩

theorem LastAt.unique (h : LastAt marks past later) (h' : LastAt marks past' later')
    (heq : past ++ later = past' ++ later') : past = past' ∧ later = later' := by
  induction h generalizing past' later' with
  | empty =>
      obtain ⟨rfl, rfl⟩ := List.append_eq_nil_iff.1 heq.symm
      exact ⟨rfl, rfl⟩
  | set h hset ih =>
      cases h' with
      | empty => simp at heq
      | set h' hset' => exact ⟨by simpa using heq, rfl⟩
      | keep h' hkeep' =>
          rw [List.append_nil, ← List.append_assoc] at heq
          obtain ⟨hevents, hevent⟩ := List.append_inj' heq rfl
          rw [hevents, List.singleton_inj.1 hevent] at hset
          exact absurd hset hkeep'
  | keep h hkeep ih =>
      cases h' with
      | empty => simp at heq
      | set h' hset' =>
          rw [List.append_nil, ← List.append_assoc] at heq
          obtain ⟨hevents, hevent⟩ := List.append_inj' heq rfl
          rw [hevents, List.singleton_inj.1 hevent] at hkeep
          exact absurd hset' hkeep
      | keep h' hkeep' =>
          rw [← List.append_assoc, ← List.append_assoc] at heq
          obtain ⟨hevents, hevent⟩ := List.append_inj' heq rfl
          obtain ⟨rfl, rfl⟩ := ih h' hevents
          exact ⟨rfl, by rw [hevent]⟩

end Segmentation
