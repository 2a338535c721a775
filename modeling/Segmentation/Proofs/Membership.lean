import Segmentation.Membership
import Mathlib.Data.List.Forall2

/-!
# Membership sets

What the two sets of memberships hold is a matter of keys: an identifier and a
mode.  Adding the entries of a list gives the keys that were there and those of
the list, although no key is added twice; the segments that are added are the first
ones with their keys.  Additions made side by side, of segments that repeat at the
same places, give sets of the same sizes.
-/

namespace Segmentation.Memberships

theorem holds_append (segments : List SegmentRef) (segment : SegmentRef) (id : String) :
    holds (segments ++ [segment]) id = (holds segments id || segment.id == id) := by
  simp [holds]

theorem get_set (memberships : Memberships) (segments : List SegmentRef)
    (mode other : MembershipMode) :
    (memberships.set segments mode).get other =
      if other = mode then segments else memberships.get other := by
  cases mode <;> cases other <;> rfl

/-- Two pairs of sets are equal if they are in both modes. -/
theorem ext_get {left right : Memberships} (h : ∀ mode, left.get mode = right.get mode) :
    left = right := by
  obtain ⟨inclusions, exclusions⟩ := left
  exact congrArg₂ Memberships.mk (h .incl) (h .excl)

/-- A set holds what it held before an addition and the segment that was added to it. -/
theorem holds_get_add (memberships : Memberships) (segment : SegmentRef)
    (mode other : MembershipMode) (id : String) :
    holds ((memberships.add segment mode).1.get other) id ↔
      holds (memberships.get other) id ∨ (segment.id = id ∧ other = mode) := by
  rw [add]
  split
  · next hpresent =>
      constructor
      · exact Or.inl
      · rintro (hheld | ⟨rfl, rfl⟩)
        · exact hheld
        · exact hpresent
  · rw [get_set]
    by_cases hmode : other = mode
    · simp [hmode, holds_append]
    · simp [hmode]

/-! ## Keys -/

/-- The identifiers of some segments with their modes. -/
def keys (entries : List (SegmentRef × MembershipMode)) : List (String × MembershipMode) :=
  entries.map fun entry => (entry.1.id, entry.2)

theorem mem_keys_toList (memberships : Memberships) (id : String) (mode : MembershipMode) :
    (id, mode) ∈ keys memberships.toList ↔ holds (memberships.get mode) id := by
  cases mode <;> simp [keys, toList, holds, get]

/-- Adding entries one after another gives the keys of the sets and of the entries. -/
theorem mem_keys_foldl_add (entries : List (SegmentRef × MembershipMode))
    (memberships : Memberships) (key : String × MembershipMode) :
    key ∈ keys (entries.foldl (fun memberships (segment, mode) =>
        (memberships.add segment mode).1) memberships).toList ↔
      key ∈ keys (memberships.toList ++ entries) := by
  obtain ⟨id, mode⟩ := key
  induction entries generalizing memberships with
  | nil => simp
  | cons entry rest ih =>
      have hsplit : ∀ start : Memberships, ∀ entries,
          (id, mode) ∈ keys (start.toList ++ entries) ↔
            holds (start.get mode) id ∨ (id, mode) ∈ keys entries := by
        intro start entries
        rw [← mem_keys_toList]
        simp [keys]
      have hhead : (id, mode) ∈ keys (entry :: rest) ↔
          (entry.1.id = id ∧ mode = entry.2) ∨ (id, mode) ∈ keys rest := by
        simp [keys, eq_comm]
      rw [List.foldl_cons, ih, hsplit, hsplit, hhead, holds_get_add, or_assoc]

/-! ## What additions leave in a set -/

/-- The segments of the entries in one mode. -/
def ofMode (mode : MembershipMode) (entries : List (SegmentRef × MembershipMode)) :
    List SegmentRef :=
  entries.filterMap fun (segment, other) => if other = mode then some segment else none

/-- The segments whose identifier is neither an earlier one nor that of a segment before them. -/
def newcomers (earlier : List String) : List SegmentRef → List SegmentRef
  | [] => []
  | segment :: rest =>
    (if segment.id ∈ earlier then [] else [segment]) ++ newcomers (segment.id :: earlier) rest

theorem newcomers_congr {earlier others : List String} (h : ∀ id, id ∈ earlier ↔ id ∈ others)
    (segments : List SegmentRef) : newcomers earlier segments = newcomers others segments := by
  induction segments generalizing earlier others with
  | nil => rfl
  | cons segment rest ih =>
      have hmore : ∀ id, id ∈ segment.id :: earlier ↔ id ∈ segment.id :: others := by
        intro id
        rw [List.mem_cons, List.mem_cons, h]
      rw [newcomers, newcomers, ih hmore]
      simp only [h]

theorem holds_iff_mem_map (segments : List SegmentRef) (id : String) :
    holds segments id ↔ id ∈ segments.map SegmentRef.id := by
  rw [holds, List.any_eq_true, List.mem_map]
  simp only [beq_iff_eq]

theorem get_add_same (memberships : Memberships) (segment : SegmentRef) (mode : MembershipMode) :
    (memberships.add segment mode).1.get mode = memberships.get mode ++
      if segment.id ∈ (memberships.get mode).map SegmentRef.id then [] else [segment] := by
  rw [add]
  split
  · next hheld => rw [if_pos ((holds_iff_mem_map _ _).1 hheld), List.append_nil]
  · next hnew => rw [if_neg (mt (holds_iff_mem_map _ _).2 hnew), get_set, if_pos rfl]

theorem get_add_other (memberships : Memberships) (segment : SegmentRef)
    {mode other : MembershipMode} (h : mode ≠ other) :
    (memberships.add segment mode).1.get other = memberships.get other := by
  rw [add]
  split
  · rfl
  · rw [get_set, if_neg (Ne.symm h)]

/-- Adding entries one after another leaves in each set what it held and then the newcomers. -/
theorem get_foldl_add (entries : List (SegmentRef × MembershipMode)) (memberships : Memberships)
    (mode : MembershipMode) :
    (entries.foldl (fun memberships (segment, mode) => (memberships.add segment mode).1)
        memberships).get mode =
      memberships.get mode ++
        newcomers ((memberships.get mode).map SegmentRef.id) (ofMode mode entries) := by
  induction entries generalizing memberships with
  | nil => exact (List.append_nil _).symm
  | cons entry rest ih =>
      obtain ⟨segment, other⟩ := entry
      rw [List.foldl_cons, ih]
      by_cases hmode : other = mode
      · subst hmode
        have hentries : ofMode other ((segment, other) :: rest) = segment :: ofMode other rest := by
          simp [ofMode]
        have hids : ∀ id, id ∈ ((memberships.add segment other).1.get other).map SegmentRef.id ↔
            id ∈ segment.id :: (memberships.get other).map SegmentRef.id := by
          intro id
          rw [← holds_iff_mem_map, holds_get_add, holds_iff_mem_map, List.mem_cons, or_comm]
          simp only [and_true, eq_comm]
        rw [newcomers_congr hids, get_add_same, hentries, newcomers, List.append_assoc]
      · have hentries : ofMode mode ((segment, other) :: rest) = ofMode mode rest := by
          simp [ofMode, hmode]
        rw [get_add_other _ _ hmode, hentries]

/-! ## Additions side by side -/

variable (Alike : MembershipMode → SegmentRef → SegmentRef → Prop)

/-- The segments of two pairs of sets are alike, place by place. -/
def AreAlike (left right : Memberships) : Prop :=
  ∀ mode, List.Forall₂ (Alike mode) (left.get mode) (right.get mode)

/-- Segments that are alike have equal identifiers at the same places. -/
def RepeatAlike : Prop :=
  ∀ mode left right other counterpart, Alike mode left right → Alike mode other counterpart →
    (left.id = other.id ↔ right.id = counterpart.id)

variable {Alike}

theorem holds_eq_of_repeatAlike (halike : RepeatAlike Alike) {mode : MembershipMode}
    {lefts rights : List SegmentRef} (h : List.Forall₂ (Alike mode) lefts rights)
    {left right : SegmentRef} (hsegment : Alike mode left right) :
    holds lefts left.id = holds rights right.id := by
  induction h with
  | nil => rfl
  | @cons first counterpart lefts rights hfirst _ ih =>
      have hid : (first.id == left.id) = (counterpart.id == right.id) := by
        rw [Bool.eq_iff_iff, beq_iff_eq, beq_iff_eq]
        exact halike mode first counterpart left right hfirst hsegment
      simp only [holds, List.any_cons, hid] at ih ⊢
      rw [ih]

theorem AreAlike.add (halike : RepeatAlike Alike) {left right : Memberships}
    (h : AreAlike Alike left right) {mode : MembershipMode} {segment counterpart : SegmentRef}
    (hsegment : Alike mode segment counterpart) :
    AreAlike Alike (left.add segment mode).1 (right.add counterpart mode).1 := by
  unfold Memberships.add
  rw [holds_eq_of_repeatAlike halike (h mode) hsegment]
  split
  · exact h
  · intro other
    rw [get_set, get_set]
    by_cases hmode : other = mode
    · subst hmode
      rw [if_pos rfl, if_pos rfl]
      exact List.rel_append (h other) (.cons hsegment .nil)
    · rw [if_neg hmode, if_neg hmode]
      exact h other

theorem AreAlike.foldl_add (halike : RepeatAlike Alike) {left right : Memberships}
    (h : AreAlike Alike left right) {lefts rights : List (SegmentRef × MembershipMode)}
    (hentries : List.Forall₂ (fun entry counterpart =>
      entry.2 = counterpart.2 ∧ Alike entry.2 entry.1 counterpart.1) lefts rights) :
    AreAlike Alike
      (lefts.foldl (fun memberships (segment, mode) => (memberships.add segment mode).1) left)
      (rights.foldl (fun memberships (segment, mode) => (memberships.add segment mode).1) right) := by
  refine List.rel_foldl ?_ h hentries
  rintro left right hsets ⟨segment, mode⟩ ⟨counterpart, _⟩ ⟨rfl, hsegment⟩
  exact hsets.add halike hsegment

theorem AreAlike.modes_eq {left right : Memberships} (h : AreAlike Alike left right) :
    left.toList.map Prod.snd = right.toList.map Prod.snd := by
  have hinclusions : left.inclusions.length = right.inclusions.length := (h .incl).length_eq
  have hexclusions : left.exclusions.length = right.exclusions.length := (h .excl).length_eq
  simp [toList, Function.comp_def, hinclusions, hexclusions]

end Segmentation.Memberships
