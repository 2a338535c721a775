import Segmentation.Number.Double

/-!
# JSON values

A JSON value with its objects in the order they are written.  A key keeps its
first place and its last value.  Numbers are integers where they are spelled as
integers of at most 64 bits, and doubles otherwise.
-/

namespace Segmentation

inductive Json
  | null
  | bool (value : Bool)
  | integer (value : Int)
  | real (value : Double)
  | string (value : String)
  | array (items : List Json)
  | object (members : List (String × Json))
deriving Inhabited

namespace Json

abbrev Members := List (String × Json)

/-- The value under a key. -/
def find? (members : Members) (key : String) : Option Json :=
  match members with
  | [] => none
  | (name, value) :: rest => if name = key then some value else find? rest key

/-- Puts a value under a key: in place if the key is there, else at the end. -/
def put (members : Members) (key : String) (value : Json) : Members :=
  match members with
  | [] => [(key, value)]
  | (name, old) :: rest =>
    if name = key then (name, value) :: rest else (name, old) :: put rest key value

theorem sizeOf_find?_lt {members : Members} {key : String} {value : Json}
    (h : find? members key = some value) : sizeOf value < sizeOf members := by
  induction members with
  | nil => simp [find?] at h
  | cons member rest ih =>
    obtain ⟨name, old⟩ := member
    unfold find? at h
    split at h
    · cases h
      simp
      omega
    · have := ih h
      simp
      omega

theorem mem_of_find?_eq_some {members : Members} {key : String} {value : Json}
    (h : find? members key = some value) : (key, value) ∈ members := by
  induction members with
  | nil => simp [find?] at h
  | cons member rest ih =>
    obtain ⟨name, old⟩ := member
    unfold find? at h
    split at h
    · next heq =>
      cases h
      rw [heq]
      exact List.mem_cons_self
    · exact List.mem_cons_of_mem _ (ih h)

/-- What stands alone under a key is found there. -/
theorem find?_eq_some_of_mem {members : Members} {key : String} {value : Json}
    (hmem : (key, value) ∈ members)
    (hunique : ∀ other, (key, other) ∈ members → other = value) :
    find? members key = some value := by
  induction members with
  | nil => cases hmem
  | cons member rest ih =>
    obtain ⟨name, old⟩ := member
    unfold find?
    split
    · next heq =>
      rw [hunique old (heq ▸ List.mem_cons_self)]
    · next hne =>
      have hrest : (key, value) ∈ rest := by
        cases hmem with
        | head => exact absurd rfl hne
        | tail _ hrest => exact hrest
      exact ih hrest fun other hother => hunique other (List.mem_cons_of_mem _ hother)

theorem find?_eq_none_iff {members : Members} {key : String} :
    find? members key = none ↔ key ∉ members.map Prod.fst := by
  induction members with
  | nil => simp [find?]
  | cons member rest ih =>
    obtain ⟨name, old⟩ := member
    by_cases heq : name = key
    · simp [find?, heq]
    · have hne : key ≠ name := fun h => heq h.symm
      simp [find?, heq, hne, ih]

end Json

end Segmentation
