import Segmentation.Language.Grammar
import Segmentation.Proofs.Membership
import Mathlib.Data.List.Induction

/-!
# What statements denote

The definition that a list of statements describes, each part read off the list by
itself: the last description, dataset and connective, the conditions and groups in
order, and for each mode the first segment with each identifier.  Adding the
statements one after another to an empty definition comes to the same.
-/

namespace Segmentation.Language

/-! ## Parts of statements -/

namespace Statement

def description? : Statement → Option String
  | .description text => some text
  | _ => none

def dataset? : Statement → Option String
  | .dataset name => some name
  | _ => none

def connective? : Statement → Option Connective
  | .connective op => some op
  | _ => none

def condition? : Statement → Option Condition
  | .condition c => some c
  | _ => none

def group? : Statement → Option Group
  | .group g => some g
  | _ => none

/-- The segment of a membership in one of the two modes. -/
def member? (mode : MembershipMode) : Statement → Option SegmentRef
  | .membership segment mode' => if mode' = mode then some segment else none
  | _ => none

theorem condition?_eq_some_iff {statement : Statement} {condition : Condition} :
    statement.condition? = some condition ↔ statement = .condition condition := by
  cases statement <;> simp [condition?]

theorem group?_eq_some_iff {statement : Statement} {group : Group} :
    statement.group? = some group ↔ statement = .group group := by
  cases statement <;> simp [group?]

end Statement

/-! ## The first of each -/

/-- The segments without those whose identifier occurs before them. -/
def firstOfEach : List SegmentRef → List SegmentRef
  | [] => []
  | segment :: rest => segment :: (firstOfEach rest).filter fun other => other.id ≠ segment.id

theorem holds_filter_ne (segments : List SegmentRef) {id other : String} (h : id ≠ other) :
    Memberships.holds (segments.filter fun segment => segment.id ≠ other) id =
      Memberships.holds segments id := by
  rw [Memberships.holds, Memberships.holds, List.any_filter]
  congr 1
  funext segment
  by_cases hid : segment.id = id
  · simp [hid, h]
  · simp [hid]

/-- One more segment at the end is left out if its identifier is there. -/
theorem firstOfEach_concat (segments : List SegmentRef) (last : SegmentRef) :
    firstOfEach (segments ++ [last]) =
      if Memberships.holds (firstOfEach segments) last.id then firstOfEach segments
      else firstOfEach segments ++ [last] := by
  induction segments with
  | nil => rfl
  | cons segment segments ih =>
      have hholds : Memberships.holds (firstOfEach (segment :: segments)) last.id =
          (segment.id == last.id || Memberships.holds ((firstOfEach segments).filter
            fun other => other.id ≠ segment.id) last.id) := rfl
      rw [List.cons_append, firstOfEach, ih, hholds, firstOfEach]
      by_cases hid : last.id = segment.id
      · rw [hid, beq_self_eq_true, Bool.true_or, if_pos rfl]
        split
        · rfl
        · rw [List.filter_append, List.filter_cons_of_neg (by simpa using hid), List.filter_nil,
            List.append_nil]
      · rw [holds_filter_ne _ hid, beq_false_of_ne (Ne.symm hid), Bool.false_or]
        split
        · rfl
        · rw [List.filter_append, List.filter_cons_of_pos (by simpa using hid), List.filter_nil]
          rfl

theorem nodup_firstOfEach (segments : List SegmentRef) :
    ((firstOfEach segments).map SegmentRef.id).Nodup := by
  induction segments with
  | nil => exact .nil
  | cons segment segments ih =>
      rw [firstOfEach, List.map_cons, List.nodup_cons]
      constructor
      · simp
      · exact ih.sublist (List.filter_sublist.map SegmentRef.id)

theorem firstOfEach_eq_self {segments : List SegmentRef}
    (h : (segments.map SegmentRef.id).Nodup) : firstOfEach segments = segments := by
  induction segments with
  | nil => rfl
  | cons segment segments ih =>
      rw [List.map_cons, List.nodup_cons] at h
      have hrest : (segments.filter fun other => other.id ≠ segment.id) = segments := by
        rw [List.filter_eq_self]
        intro other hother
        have hne : other.id ≠ segment.id := by
          intro hid
          rw [← hid] at h
          exact h.1 (List.mem_map_of_mem hother)
        simpa using hne
      rw [firstOfEach, ih h.2, hrest]

/-! ## Definitions -/

/-- The last part of a kind. -/
def lastOf {α : Type} (part? : Statement → Option α) (statements : List Statement) : Option α :=
  (statements.filterMap part?).getLast?

def firstMembers (statements : List Statement) : Memberships where
  inclusions := firstOfEach (statements.filterMap (Statement.member? .incl))
  exclusions := firstOfEach (statements.filterMap (Statement.member? .excl))

def denote (name : String) (statements : List Statement) : Definition where
  name := name
  description := (lastOf Statement.description? statements).getD ""
  dataset := lastOf Statement.dataset? statements
  connective := (lastOf Statement.connective? statements).getD .all
  conditions := statements.filterMap Statement.condition?
  groups := statements.filterMap Statement.group?
  memberships := firstMembers statements

theorem filterMap_cons_eq {α : Type} (part? : Statement → Option α) (first : Statement)
    (statements : List Statement) :
    (first :: statements).filterMap part? =
      (part? first).toList ++ statements.filterMap part? := by
  cases hpart : part? first with
  | none => rw [List.filterMap_cons_none hpart]; rfl
  | some value => rw [List.filterMap_cons_some hpart]; rfl

theorem filterMap_concat {α : Type} (part? : Statement → Option α) (statements : List Statement)
    (last : Statement) :
    (statements ++ [last]).filterMap part? =
      statements.filterMap part? ++ (part? last).toList := by
  rw [List.filterMap_append, filterMap_cons_eq, List.filterMap_nil, List.append_nil]

theorem lastOf_concat {α : Type} (part? : Statement → Option α) (statements : List Statement)
    (last : Statement) :
    lastOf part? (statements ++ [last]) = (part? last).or (lastOf part? statements) := by
  rw [lastOf, filterMap_concat, List.getLast?_append]
  cases part? last <;> rfl

theorem get_firstMembers (statements : List Statement) (mode : MembershipMode) :
    (firstMembers statements).get mode =
      firstOfEach (statements.filterMap (Statement.member? mode)) := by
  cases mode <;> rfl

theorem firstMembers_concat (statements : List Statement) (segment : SegmentRef)
    (mode : MembershipMode) :
    firstMembers (statements ++ [.membership segment mode]) =
      ((firstMembers statements).add segment mode).1 := by
  apply Memberships.ext_get
  intro other
  rw [get_firstMembers, filterMap_concat, Statement.member?, Memberships.add, get_firstMembers]
  by_cases hmode : mode = other
  · subst hmode
    rw [if_pos rfl, Option.toList_some, firstOfEach_concat]
    split
    · rw [get_firstMembers]
    · rw [Memberships.get_set, if_pos rfl]
  · rw [if_neg hmode, Option.toList_none, List.append_nil, ← get_firstMembers]
    split
    · rfl
    · rw [Memberships.get_set, if_neg (Ne.symm hmode)]

/-- One more statement adds to what the statements before it denote. -/
theorem denote_concat (name : String) (statements : List Statement) (last : Statement) :
    denote name (statements ++ [last]) = last.addTo (denote name statements) := by
  cases last with
  | membership segment mode =>
      simp only [denote, lastOf_concat, filterMap_concat, firstMembers_concat, Statement.addTo,
        Statement.description?, Statement.dataset?, Statement.connective?, Statement.condition?,
        Statement.group?, Option.none_or, Option.toList_none, List.append_nil]
  | _ =>
      simp only [denote, lastOf_concat, filterMap_concat, firstMembers, Statement.addTo,
        Statement.description?, Statement.dataset?, Statement.connective?, Statement.condition?,
        Statement.group?, Statement.member?, Option.none_or, Option.some_or, Option.getD_some,
        Option.toList_none, Option.toList_some, List.append_nil]

/-- Adding statements one after another gives what they denote. -/
theorem foldl_addTo (name : String) (statements : List Statement) :
    statements.foldl Statement.addTo { name } = denote name statements := by
  induction statements using List.reverseRecOn with
  | nil => rfl
  | append_singleton statements last ih =>
      rw [List.foldl_append, ih, denote_concat]
      rfl

end Segmentation.Language
