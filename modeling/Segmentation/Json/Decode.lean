import Segmentation.Json.Basic

/-!
# Decoding JSON

A decoder takes a value to what it stands for, or to nothing if the value has
another form.  A record is an object, whose order is free and whose unknown keys are
passed over, or an array of its values in the order of the record's keys.
-/

namespace Segmentation.Json

def asString? : Json → Option String
  | .string value => some value
  | _ => none

def asBool? : Json → Option Bool
  | .bool value => some value
  | _ => none

def asInteger? (low high : Int) : Json → Option Int
  | .integer value => if low ≤ value ∧ value ≤ high then some value else none
  | _ => none

/-- A natural number below `bound`. -/
def asNat? (bound : Nat) : Json → Option Nat
  | .integer (.ofNat value) => if value < bound then some value else none
  | _ => none

def asUInt32? (value : Json) : Option UInt32 :=
  (asNat? UInt32.size value).map UInt32.ofNat

def asUInt64? (value : Json) : Option UInt64 :=
  (asNat? UInt64.size value).map UInt64.ofNat

def asMembers? : Json → Option Members
  | .object members => some members
  | _ => none

def asItems? : Json → Option (List Json)
  | .array items => some items
  | _ => none

/-- The members of a record with these keys.  An array may leave out the last values, and
has no more than there are keys. -/
def asRecord? (keys : List String) : Json → Option Members
  | .object members => some members
  | .array items => if items.length ≤ keys.length then some (keys.zip items) else none
  | _ => none

def asList? {α : Type} (read : Json → Option α) : Json → Option (List α)
  | .array items => items.mapM read
  | _ => none

/-- A value that may be null. -/
def asNullable? {α : Type} (read : Json → Option α) : Json → Option (Option α)
  | .null => some none
  | value => (read value).map some

/-- A word from a fixed list.  The word may also stand as the only key of an
object, with null under it. -/
def asWord? {α : Type} (words : List (String × α)) : Json → Option α
  | .string word => words.lookup word
  | .object [(word, .null)] => words.lookup word
  | _ => none

/-- A word as `asWord?` reads it, or as the only key of an object that has an empty
object under it. -/
def asLooseWord? {α : Type} (words : List (String × α)) : Json → Option α
  | .object [(word, .object [])] => words.lookup word
  | value => asWord? words value

/-- Whether every key is one of those known. -/
def hasOnly (keys : List String) (members : Members) : Bool :=
  members.all fun (key, _) => keys.contains key

/-- The value under a key that must be there. -/
def required? {α : Type} (members : Members) (key : String) (read : Json → Option α) :
    Option α :=
  (find? members key).bind read

/-- The value under a key, or a default if the key is not there. -/
def defaulted? {α : Type} (members : Members) (key : String) (default : α)
    (read : Json → Option α) : Option α :=
  match find? members key with
  | none => some default
  | some value => read value

theorem mem_of_find?_zip {keys : List String} {items : List Json} {key : String} {value : Json}
    (h : find? (keys.zip items) key = some value) : value ∈ items := by
  induction keys generalizing items with
  | nil => simp [find?] at h
  | cons name keys ih =>
    cases items with
    | nil => simp [find?] at h
    | cons item items =>
      simp only [List.zip_cons_cons, find?] at h
      split at h
      · cases h
        exact List.mem_cons_self
      · exact List.mem_cons_of_mem _ (ih h)

/-- A value of a record is smaller than the record. -/
theorem sizeOf_value_lt {keys : List String} {json value : Json} {members : Members} {key : String}
    (hrecord : json.asRecord? keys = some members) (h : find? members key = some value) :
    sizeOf value < sizeOf json := by
  unfold asRecord? at hrecord
  split at hrecord
  · cases hrecord
    have := sizeOf_find?_lt h
    simp only [object.sizeOf_spec]
    omega
  · split at hrecord
    · cases hrecord
      have := List.sizeOf_lt_of_mem (mem_of_find?_zip h)
      simp only [array.sizeOf_spec]
      omega
    · cases hrecord
  · cases hrecord

def ofNullable {α : Type} (write : α → Json) : Option α → Json
  | none => .null
  | some value => write value

def ofNat (n : Nat) : Json :=
  .integer n

end Segmentation.Json
