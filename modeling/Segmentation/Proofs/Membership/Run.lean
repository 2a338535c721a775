import Segmentation.Proofs.Membership
import Mathlib.Data.List.Induction
import Mathlib.Data.List.Nodup

/-!
# Uses of the membership sets

Segments are put into the two sets and taken out of them, directly or through the picker.  What a
set holds after any uses is read off the changes that were directed at it: the segments whose
addition was the first of their identifier since its last removal, in the order of these additions
and as they were added.
-/

namespace Segmentation.Memberships

/-! ## Changes of one set -/

/-- What is asked of one of the sets. -/
inductive Change
  | add (segment : SegmentRef)
  | remove (id : String)
deriving DecidableEq

/-- Every addition of an identifier was followed by its removal. -/
def IsGone (changes : List Change) (id : String) : Prop :=
  ∀ past segment later, changes = past ++ .add segment :: later → segment.id = id →
    .remove id ∈ later

/-- A segment was added at a place, as the first of its identifier since that was last removed,
and its identifier was not removed afterwards. -/
structure FirstAdd (changes : List Change) (place : Nat) (segment : SegmentRef) : Prop where
  added : changes[place]? = some (.add segment)
  first : IsGone (changes.take place) segment.id
  kept : .remove segment.id ∉ changes.drop (place + 1)

/-- A list holds the segments of the first additions, in the order of their places. -/
def AreFirstAdds (changes : List Change) (segments : List SegmentRef) : Prop :=
  ∃ entries : List (Nat × SegmentRef),
    entries.Pairwise (fun entry later => entry.1 < later.1) ∧
    (∀ place segment, (place, segment) ∈ entries ↔ FirstAdd changes place segment) ∧
    segments = entries.map Prod.snd

section

variable {changes : List Change} {change : Change} {segment : SegmentRef} {place : Nat}

theorem isGone_nil (id : String) : IsGone [] id := by
  intro past segment later hsplit
  simp at hsplit

/-- An identifier is gone after its removal, and until it is added again. -/
theorem isGone_concat (id : String) :
    IsGone (changes ++ [change]) id ↔
      change = .remove id ∨
        IsGone changes id ∧ ∀ segment, change = .add segment → segment.id ≠ id := by
  constructor
  · intro h
    by_cases hremove : change = .remove id
    · exact .inl hremove
    · right
      constructor
      · intro past segment later hsplit hid
        have hmem : .remove id ∈ later ++ [change] := by
          apply h past segment _ _ hid
          rw [hsplit, List.append_assoc, List.cons_append]
        grind
      · intro segment hadd hid
        have hmem := h changes segment [] (by rw [hadd]) hid
        contradiction
  · intro h past segment later hsplit hid
    obtain rfl | ⟨before, last, rfl⟩ := later.eq_nil_or_concat
    · obtain ⟨_, hlast⟩ := List.append_inj' hsplit rfl
      have hadd : change = .add segment := (List.cons.inj hlast).1
      obtain hremove | ⟨_, hnew⟩ := h
      · rw [hadd] at hremove
        contradiction
      · exact absurd hid (hnew segment hadd)
    · rw [List.concat_eq_append, ← List.cons_append, ← List.append_assoc] at hsplit
      obtain ⟨hbefore, hlast⟩ := List.append_inj' hsplit rfl
      rw [List.concat_eq_append, ← hlast, List.mem_append]
      obtain hremove | ⟨hgone, _⟩ := h
      · exact .inr (List.mem_singleton.2 hremove.symm)
      · exact .inl (hgone past segment before hbefore hid)

theorem FirstAdd.lt_length (h : FirstAdd changes place segment) : place < changes.length := by
  exact (List.getElem?_eq_some_iff.1 h.added).choose

/-- A change at the end keeps a first addition unless it is the removal of its identifier. -/
theorem firstAdd_concat_of_lt (hlt : place < changes.length) :
    FirstAdd (changes ++ [change]) place segment ↔
      FirstAdd changes place segment ∧ change ≠ .remove segment.id := by
  have hget : (changes ++ [change])[place]? = changes[place]? := List.getElem?_append_left hlt
  have htake : (changes ++ [change]).take place = changes.take place :=
    List.take_append_of_le_length (Nat.le_of_lt hlt)
  have hkept : .remove segment.id ∉ (changes ++ [change]).drop (place + 1) ↔
      .remove segment.id ∉ changes.drop (place + 1) ∧ change ≠ .remove segment.id := by
    rw [List.drop_append_of_le_length hlt, List.mem_append, List.mem_singleton, not_or, ne_comm]
  constructor
  · intro h
    obtain ⟨hearlier, hlast⟩ := hkept.1 h.kept
    exact ⟨⟨hget ▸ h.added, htake ▸ h.first, hearlier⟩, hlast⟩
  · intro h
    obtain ⟨hfirst, hlast⟩ := h
    exact ⟨hget.trans hfirst.added, htake.symm ▸ hfirst.first, hkept.2 ⟨hfirst.kept, hlast⟩⟩

/-- The change at the end is a first addition if it adds an identifier that was gone. -/
theorem firstAdd_concat_length :
    FirstAdd (changes ++ [change]) changes.length segment ↔
      change = .add segment ∧ IsGone changes segment.id := by
  have htake : (changes ++ [change]).take changes.length = changes := List.take_left
  constructor
  · intro h
    have hadded := h.added
    rw [List.getElem?_concat_length] at hadded
    exact ⟨Option.some.inj hadded, htake ▸ h.first⟩
  · intro h
    obtain ⟨rfl, hgone⟩ := h
    refine ⟨List.getElem?_concat_length, htake.symm ▸ hgone, ?_⟩
    simp

theorem firstAdd_concat :
    FirstAdd (changes ++ [change]) place segment ↔
      FirstAdd changes place segment ∧ change ≠ .remove segment.id ∨
        place = changes.length ∧ change = .add segment ∧ IsGone changes segment.id := by
  obtain hlt | rfl | hgt := Nat.lt_trichotomy place changes.length
  · rw [firstAdd_concat_of_lt hlt, or_iff_left]
    intro h
    exact Nat.ne_of_lt hlt h.1
  · rw [firstAdd_concat_length, or_iff_right, and_iff_right rfl]
    intro h
    exact Nat.lt_irrefl _ h.1.lt_length
  · constructor
    · intro h
      have hlt := h.lt_length
      rw [List.length_append, List.length_singleton] at hlt
      omega
    · intro h
      obtain ⟨hfirst, _⟩ | ⟨rfl, _⟩ := h
      · exact absurd hfirst.lt_length (Nat.lt_asymm hgt)
      · exact absurd hgt (Nat.lt_irrefl _)

/-- There is a first addition of just those identifiers that are not gone. -/
theorem exists_firstAdd_iff (changes : List Change) (id : String) :
    (∃ place segment, FirstAdd changes place segment ∧ segment.id = id) ↔
      ¬ IsGone changes id := by
  induction changes using List.reverseRecOn with
  | nil =>
      constructor
      · intro h
        obtain ⟨place, segment, hfirst, _⟩ := h
        exact absurd hfirst.lt_length (Nat.not_lt_zero place)
      · intro h
        exact absurd (isGone_nil id) h
  | append_singleton changes change ih =>
      rw [isGone_concat, not_or, not_and_or, ← ih]
      constructor
      · intro h
        obtain ⟨place, segment, hfirst, rfl⟩ := h
        obtain ⟨hfirst, hkept⟩ | ⟨_, rfl, _⟩ := firstAdd_concat.1 hfirst
        · exact ⟨hkept, .inl ⟨place, segment, hfirst, rfl⟩⟩
        · simp
      · intro h
        obtain ⟨hkept, hcase⟩ := h
        by_cases hfirst : ∃ place segment, FirstAdd changes place segment ∧ segment.id = id
        · obtain ⟨place, segment, hfirst, rfl⟩ := hfirst
          exact ⟨place, segment, firstAdd_concat.2 (.inl ⟨hfirst, hkept⟩), rfl⟩
        · have hgone : IsGone changes id := not_not.1 (mt ih.2 hfirst)
          obtain ⟨segment, rfl, rfl⟩ : ∃ segment, change = .add segment ∧ segment.id = id := by
            simpa using hcase.resolve_left hfirst
          exact ⟨changes.length, segment, firstAdd_concat.2 (.inr ⟨rfl, rfl, hgone⟩), rfl⟩

/-! ## The list of first additions -/

variable {segments : List SegmentRef}

theorem areFirstAdds_nil : AreFirstAdds [] [] := by
  refine ⟨[], .nil, ?_, rfl⟩
  intro place segment
  constructor
  · intro h
    contradiction
  · intro h
    exact absurd h.lt_length (Nat.not_lt_zero place)

theorem AreFirstAdds.mem_iff (h : AreFirstAdds changes segments) (segment : SegmentRef) :
    segment ∈ segments ↔ ∃ place, FirstAdd changes place segment := by
  obtain ⟨entries, _, hentries, rfl⟩ := h
  simp [hentries]

/-- A segment is in the list unless its identifier is gone. -/
theorem AreFirstAdds.mem_ids_iff (h : AreFirstAdds changes segments) (id : String) :
    id ∈ segments.map SegmentRef.id ↔ ¬ IsGone changes id := by
  calc id ∈ segments.map SegmentRef.id
      ↔ ∃ segment, (∃ place, FirstAdd changes place segment) ∧ segment.id = id := by
        simp only [List.mem_map, h.mem_iff]
    _ ↔ ∃ place segment, FirstAdd changes place segment ∧ segment.id = id := by
        grind
    _ ↔ ¬ IsGone changes id := exists_firstAdd_iff changes id

/-- Two first additions are of different identifiers: between them there would be a removal. -/
theorem FirstAdd.id_ne {later : Nat} {other : SegmentRef} (h : FirstAdd changes place segment)
    (hlater : FirstAdd changes later other) (hlt : place < later) : segment.id ≠ other.id := by
  intro hid
  have hsplit : changes.take later = changes.take place ++
      .add segment :: (changes.take later).drop (place + 1) := by
    have hget : (changes.take later)[place]? = some (.add segment) := by
      rw [List.getElem?_take_of_lt hlt, h.added]
    obtain ⟨hbound, hplace⟩ := List.getElem?_eq_some_iff.1 hget
    calc changes.take later
        = (changes.take later).take place ++ (changes.take later).drop place :=
          (List.take_append_drop place _).symm
      _ = changes.take place ++ .add segment :: (changes.take later).drop (place + 1) := by
          rw [List.take_take, Nat.min_eq_left (Nat.le_of_lt hlt),
            List.drop_eq_getElem_cons hbound, hplace]
  have hremoved := hlater.first _ segment _ hsplit hid
  rw [List.drop_take] at hremoved
  apply h.kept
  rw [hid]
  exact List.mem_of_mem_take hremoved

theorem AreFirstAdds.nodup (h : AreFirstAdds changes segments) :
    (segments.map SegmentRef.id).Nodup := by
  obtain ⟨entries, hsorted, hentries, rfl⟩ := h
  rw [List.map_map, List.Nodup, List.pairwise_map]
  apply hsorted.imp_of_mem
  intro entry later hentry hlater hlt
  exact ((hentries _ _).1 hentry).id_ne ((hentries _ _).1 hlater) hlt

/-- An identifier that was gone is put at the end. -/
theorem AreFirstAdds.concat_add (h : AreFirstAdds changes segments)
    (hgone : IsGone changes segment.id) :
    AreFirstAdds (changes ++ [.add segment]) (segments ++ [segment]) := by
  obtain ⟨entries, hsorted, hentries, rfl⟩ := h
  refine ⟨entries ++ [(changes.length, segment)], ?_, ?_, ?_⟩
  · rw [List.pairwise_append]
    refine ⟨hsorted, List.pairwise_singleton _ _, ?_⟩
    intro entry hentry last hlast
    rw [List.mem_singleton.1 hlast]
    exact ((hentries _ _).1 hentry).lt_length
  · intro place other
    rw [firstAdd_concat, List.mem_append, hentries, List.mem_singleton, Prod.mk.injEq]
    grind
  · rw [List.map_append, List.map_singleton]

/-- The addition of an identifier that was not gone is not a first one. -/
theorem AreFirstAdds.concat_again (h : AreFirstAdds changes segments)
    (hthere : ¬ IsGone changes segment.id) :
    AreFirstAdds (changes ++ [.add segment]) segments := by
  obtain ⟨entries, hsorted, hentries, rfl⟩ := h
  refine ⟨entries, hsorted, ?_, rfl⟩
  intro place other
  rw [firstAdd_concat, hentries]
  grind

theorem AreFirstAdds.concat_remove (h : AreFirstAdds changes segments) (id : String) :
    AreFirstAdds (changes ++ [.remove id]) (segments.filter fun segment => segment.id != id) := by
  obtain ⟨entries, hsorted, hentries, rfl⟩ := h
  refine ⟨entries.filter fun entry => entry.2.id != id, hsorted.filter _, ?_, ?_⟩
  · intro place other
    rw [firstAdd_concat, List.mem_filter, hentries]
    grind
  · rw [List.filter_map]
    rfl

end

/-! ## Uses -/

theorem get_remove (memberships : Memberships) (id : String) (mode other : MembershipMode) :
    (memberships.remove id mode).1.get other =
      if other = mode then (memberships.get mode).filter fun segment => segment.id != id
      else memberships.get other := by
  exact get_set _ _ _ _

theorem remove_snd (memberships : Memberships) (id : String) (mode : MembershipMode) :
    (memberships.remove id mode).2 = decide (id ∈ (memberships.get mode).map SegmentRef.id) := by
  rw [Bool.eq_iff_iff, decide_eq_true_iff, ← holds_iff_mem_map]
  rfl

end Segmentation.Memberships

namespace Segmentation

open Memberships

/-- The two sets and the picker. -/
structure Selection where
  memberships : Memberships := {}
  picker : Picker := none

namespace Selection

/-- What is done with the sets: directly, or through the picker. -/
inductive Use
  | add (segment : SegmentRef) (mode : MembershipMode)
  | remove (id : String) (mode : MembershipMode)
  | openFor (mode : MembershipMode)
  | close
  | select (segment : SegmentRef)

/-- What a use answers. -/
inductive Answer
  | nothing
  | outcome (outcome : AddOutcome)
  | removed (found : Bool)
deriving DecidableEq

def step (selection : Selection) : Use → Selection × Answer
  | .add segment mode =>
    let (memberships, outcome) := selection.memberships.add segment mode
    ({ selection with memberships }, .outcome outcome)
  | .remove id mode =>
    let (memberships, found) := selection.memberships.remove id mode
    ({ selection with memberships }, .removed found)
  | .openFor mode => ({ selection with picker := some mode }, .nothing)
  | .close => ({ selection with picker := none }, .nothing)
  | .select segment =>
    let (memberships, outcome) := selection.picker.select segment selection.memberships
    ({ selection with memberships }, outcome.elim .nothing .outcome)

/-- The sets and the picker after some uses, of which the first finds the sets empty and the
picker closed. -/
def run (uses : List Use) : Selection :=
  uses.foldl (fun selection use => (selection.step use).1) {}

namespace Use

/-- The set the picker is open for after a use. -/
def pickerAfter (picker : Picker) : Use → Picker
  | .openFor mode => some mode
  | .close => none
  | .add .. | .remove .. | .select _ => picker

/-- The change a use asks for and the set at which it is directed, given what the picker is open
for. -/
def change? (picker : Picker) : Use → Option (MembershipMode × Change)
  | .add segment mode => some (mode, .add segment)
  | .remove id mode => some (mode, .remove id)
  | .select segment => picker.map fun mode => (mode, .add segment)
  | .openFor _ | .close => none

/-- The change a use directs at a set, if any. -/
def changesOf (mode : MembershipMode) (picker : Picker) (use : Use) : List Change :=
  match use.change? picker with
  | some (target, change) => if target = mode then [change] else []
  | none => []

end Use

/-- The set the picker is open for after some uses. -/
def pickerAfter (picker : Picker) (uses : List Use) : Picker :=
  uses.foldl Use.pickerAfter picker

/-- The changes that some uses direct at a set, in order. -/
def changes (mode : MembershipMode) (picker : Picker) : List Use → List Change
  | [] => []
  | use :: uses => use.changesOf mode picker ++ changes mode (use.pickerAfter picker) uses

theorem changes_concat (mode : MembershipMode) (picker : Picker) (uses : List Use) (use : Use) :
    changes mode picker (uses ++ [use]) =
      changes mode picker uses ++ use.changesOf mode (pickerAfter picker uses) := by
  induction uses generalizing picker with
  | nil => exact List.append_nil _
  | cons first uses ih =>
      rw [List.cons_append, changes, ih, changes, List.append_assoc]
      rfl

theorem run_concat (uses : List Use) (use : Use) :
    run (uses ++ [use]) = ((run uses).step use).1 := by
  rw [run, List.foldl_concat]
  rfl

/-! ### What a use does -/

variable {selection : Selection} {use : Use} {mode : MembershipMode}

theorem picker_step (selection : Selection) (use : Use) :
    (selection.step use).1.picker = use.pickerAfter selection.picker := by
  cases use <;> rfl

theorem picker_run (uses : List Use) : (run uses).picker = pickerAfter none uses := by
  induction uses using List.reverseRecOn with
  | nil => rfl
  | append_singleton uses use ih =>
      rw [run_concat, picker_step, ih, pickerAfter, pickerAfter, List.foldl_concat]

/-- A use that asks for no change leaves the sets as they are and answers nothing. -/
theorem step_of_change?_eq_none (h : use.change? selection.picker = none) :
    selection.step use =
      ({ selection with picker := use.pickerAfter selection.picker }, .nothing) := by
  cases use with
  | add segment mode => contradiction
  | remove id mode => contradiction
  | openFor mode => rfl
  | close => rfl
  | select segment =>
      have hclosed : selection.picker = none := Option.map_eq_none_iff.1 h
      simp only [step, hclosed]
      rfl

theorem step_of_change?_add {segment : SegmentRef}
    (h : use.change? selection.picker = some (mode, .add segment)) :
    selection.step use =
      ({ selection with memberships := (selection.memberships.add segment mode).1 },
        .outcome (selection.memberships.add segment mode).2) := by
  cases use with
  | add _ _ =>
      cases h
      rfl
  | remove id mode => cases h
  | openFor mode => contradiction
  | close => contradiction
  | select _ =>
      obtain ⟨_, hopen, heq⟩ := Option.map_eq_some_iff.1 h
      cases heq
      simp only [step, hopen]
      rfl

theorem step_of_change?_remove {id : String}
    (h : use.change? selection.picker = some (mode, .remove id)) :
    selection.step use =
      ({ selection with memberships := (selection.memberships.remove id mode).1 },
        .removed (selection.memberships.remove id mode).2) := by
  cases use with
  | add _ _ => cases h
  | remove _ _ =>
      cases h
      rfl
  | openFor mode => contradiction
  | close => contradiction
  | select _ =>
      obtain ⟨_, _, heq⟩ := Option.map_eq_some_iff.1 h
      cases heq

/-- A use leaves alone the sets at which it is not directed. -/
theorem get_step_of_ne
    (h : ∀ change, use.change? selection.picker ≠ some (mode, change)) :
    (selection.step use).1.memberships.get mode = selection.memberships.get mode := by
  cases hchange : use.change? selection.picker with
  | none => rw [step_of_change?_eq_none hchange]
  | some directed =>
      obtain ⟨target, change⟩ := directed
      have hne : target ≠ mode := by
        intro heq
        exact h change (heq ▸ hchange)
      cases change with
      | add segment => rw [step_of_change?_add hchange, get_add_other _ _ hne]
      | remove id => rw [step_of_change?_remove hchange, get_remove, if_neg hne.symm]

/-- One more use keeps the sets to the first additions among the changes directed at them. -/
theorem areFirstAdds_step {changes : List Change}
    (h : AreFirstAdds changes (selection.memberships.get mode)) (use : Use) :
    AreFirstAdds (changes ++ use.changesOf mode selection.picker)
      ((selection.step use).1.memberships.get mode) := by
  by_cases hmine : ∃ change, use.change? selection.picker = some (mode, change)
  · obtain ⟨change, hchange⟩ := hmine
    have hone : use.changesOf mode selection.picker = [change] := by
      rw [Use.changesOf, hchange]
      exact if_pos rfl
    rw [hone]
    cases change with
    | add segment =>
        rw [step_of_change?_add hchange, get_add_same]
        -- the set and the changes agree on which additions are first ones
        by_cases hgone : IsGone changes segment.id
        · rw [if_neg ((not_congr (h.mem_ids_iff _)).2 (not_not.2 hgone))]
          exact h.concat_add hgone
        · rw [if_pos ((h.mem_ids_iff _).2 hgone), List.append_nil]
          exact h.concat_again hgone
    | remove id =>
        rw [step_of_change?_remove hchange, get_remove, if_pos rfl]
        exact h.concat_remove id
  · have hnone : use.changesOf mode selection.picker = [] := by
      rw [Use.changesOf]
      split
      · next target change hchange =>
          apply if_neg
          intro heq
          exact hmine ⟨change, heq ▸ hchange⟩
      · rfl
    rw [hnone, List.append_nil, get_step_of_ne (not_exists.1 hmine)]
    exact h

theorem areFirstAdds_run (uses : List Use) (mode : MembershipMode) :
    AreFirstAdds (changes mode none uses) ((run uses).memberships.get mode) := by
  induction uses using List.reverseRecOn with
  | nil =>
      cases mode with
      | incl => exact areFirstAdds_nil
      | excl => exact areFirstAdds_nil
  | append_singleton uses use ih =>
      rw [run_concat, changes_concat, ← picker_run]
      exact areFirstAdds_step ih use

/-! ### Insertion-ordered sets -/

/-- After some uses each set is one of segments in the order of their insertion, and the next use
treats it so. -/
structure InsertionOrdered (uses : List Use) : Prop where
  listed : ∀ mode, AreFirstAdds (changes mode none uses) ((run uses).memberships.get mode)
  nodup : ∀ mode, (((run uses).memberships.get mode).map SegmentRef.id).Nodup
  /-- A segment is added exactly if its identifier was absent. -/
  added : ∀ use mode segment, use.change? (pickerAfter none uses) = some (mode, .add segment) →
    (((run uses).step use).2 = .outcome .added ↔
      segment.id ∉ ((run uses).memberships.get mode).map SegmentRef.id)
  /-- Nothing changes if the identifier was there, under whatever name. -/
  repeated : ∀ use mode segment, use.change? (pickerAfter none uses) = some (mode, .add segment) →
    segment.id ∈ ((run uses).memberships.get mode).map SegmentRef.id →
    (run uses).step use = (run uses, .outcome (.alreadyPresent mode segment.name))
  /-- A removal says whether the identifier was there. -/
  removed : ∀ use mode id, use.change? (pickerAfter none uses) = some (mode, .remove id) →
    ((run uses).step use).2 =
      .removed (decide (id ∈ ((run uses).memberships.get mode).map SegmentRef.id))
  /-- What is not directed at a set leaves it as it is. -/
  apart : ∀ use mode, (∀ change, use.change? (pickerAfter none uses) ≠ some (mode, change)) →
    ((run uses).step use).1.memberships.get mode = (run uses).memberships.get mode
  /-- A closed picker selects nothing. -/
  closed : pickerAfter none uses = none → ∀ segment,
    (run uses).step (.select segment) = (run uses, .nothing)

theorem insertionOrdered_run (uses : List Use) : InsertionOrdered uses where
  listed := areFirstAdds_run uses
  nodup mode := (areFirstAdds_run uses mode).nodup
  added use mode segment hchange := by
    rw [← picker_run] at hchange
    rw [step_of_change?_add hchange, ← holds_iff_mem_map, add]
    split
    · next hheld => simp [hheld]
    · next hnew => simp [hnew]
  repeated use mode segment hchange hmem := by
    rw [← picker_run] at hchange
    rw [step_of_change?_add hchange, add, if_pos ((holds_iff_mem_map _ _).2 hmem)]
  removed use mode id hchange := by
    rw [← picker_run] at hchange
    rw [step_of_change?_remove hchange, remove_snd]
  apart use mode hchange := by
    rw [← picker_run] at hchange
    exact get_step_of_ne hchange
  closed hclosed segment := by
    rw [← picker_run] at hclosed
    have hchange : (Use.select segment).change? (run uses).picker = none := by
      rw [hclosed]
      rfl
    rw [step_of_change?_eq_none hchange]
    rfl

/-- An identifier that was removed comes back at the end, under its new name; until then its
additions are in vain. -/
example :
    let first : SegmentRef := { id := "a", name := "First", count := 1 }
    let other : SegmentRef := { id := "b", name := "Other", count := 2 }
    let again : SegmentRef := { first with name := "Again" }
    (run [.add first .incl, .openFor .incl, .select again, .select other, .remove "a" .incl,
      .add first .excl, .select again]).memberships =
        { inclusions := [other, again], exclusions := [first] } := by
  decide +kernel

end Selection

end Segmentation
