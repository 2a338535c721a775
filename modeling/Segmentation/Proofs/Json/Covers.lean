import Segmentation.Json.Decode
import Mathlib.Data.List.Forall2
import Mathlib.Data.List.Nodup

/-!
# Values that cover others

A JSON value covers another one if it differs from it only in the order of keys and in keys that
the other one does not have, in any of its objects.  A reader reads a written value if it reads
whatever covers it as the same thing.  Readers of records do if the readers of what is under
their keys do.
-/

namespace Segmentation.Json

/-- In the objects of a value that covers another one the members may stand in any order, and
there may be others among them, under keys that the object of the other value does not have. -/
inductive Covers : Json → Json → Prop
  | same (json : Json) : Covers json json
  | array {given written : List Json} (hitems : List.Forall₂ Covers given written) :
    Covers (.array given) (.array written)
  | object {given kept added written : Members}
    (hkeys : kept.map Prod.fst = written.map Prod.fst)
    (hvalues : List.Forall₂ Covers (kept.map Prod.snd) (written.map Prod.snd))
    (hadded : ∀ member ∈ added, member.1 ∉ written.map Prod.fst)
    (horder : given.Perm (kept ++ added)) : Covers (.object given) (.object written)

/-- What is found under a key of the second members is covered by what is found under it among
the first. -/
def CoversMembers (given written : Members) : Prop :=
  ∀ key value, find? written key = some value →
    ∃ found, find? given key = some found ∧ found.Covers value

/-! ## What covers a value -/

theorem Covers.exists_items {json : Json} {written : List Json}
    (h : json.Covers (.array written)) :
    ∃ given, json = .array given ∧ List.Forall₂ Covers given written := by
  cases h with
  | same => exact ⟨written, rfl, List.forall₂_same.2 fun item _ => .same item⟩
  | @array given _ hitems => exact ⟨given, rfl, hitems⟩

theorem exists_mem_kept {kept written : Members}
    (hkeys : kept.map Prod.fst = written.map Prod.fst)
    (hvalues : List.Forall₂ Covers (kept.map Prod.snd) (written.map Prod.snd)) {key : String}
    {value : Json} (hmem : (key, value) ∈ written) :
    ∃ found, (key, found) ∈ kept ∧ found.Covers value := by
  induction written generalizing kept with
  | nil => cases hmem
  | cons member written ih =>
      cases kept with
      | nil => contradiction
      | cons first kept =>
          obtain ⟨name, found⟩ := first
          obtain ⟨hname, hkeys⟩ := List.cons.inj hkeys
          obtain ⟨hfound, hvalues⟩ := List.forall₂_cons.1 hvalues
          cases hmem with
          | head =>
              obtain rfl : name = key := hname
              exact ⟨found, List.mem_cons_self, hfound⟩
          | tail _ hmem =>
              obtain ⟨later, hlater, hcovers⟩ := ih hkeys hvalues hmem
              exact ⟨later, List.mem_cons_of_mem _ hlater, hcovers⟩

/-- Each key of an object is still found in what covers the object, wherever it stands. -/
theorem Covers.exists_members {json : Json} {written : Members}
    (h : json.Covers (.object written)) (hnodup : (written.map Prod.fst).Nodup) :
    ∃ given, json = .object given ∧ CoversMembers given written := by
  cases h with
  | same => exact ⟨written, rfl, fun key value hfind => ⟨value, hfind, .same value⟩⟩
  | @object given kept added _ hkeys hvalues hadded horder =>
      refine ⟨given, rfl, fun key value hfind => ?_⟩
      have hwritten := mem_of_find?_eq_some hfind
      obtain ⟨found, hfound, hcovers⟩ := exists_mem_kept hkeys hvalues hwritten
      refine ⟨found, find?_eq_some_of_mem ?_ fun other hother => ?_, hcovers⟩
      · exact horder.mem_iff.2 (List.mem_append_left added hfound)
      · obtain hkept | hnew := List.mem_append.1 (horder.mem_iff.1 hother)
        · rw [← hkeys] at hnodup
          exact congrArg Prod.snd (List.inj_on_of_nodup_map hnodup hkept hfound rfl)
        · have hknown : key ∈ written.map Prod.fst := List.mem_map_of_mem hwritten
          exact absurd hknown (hadded _ hnew)

theorem CoversMembers.of_cons {given written : Members} {key : String} {value : Json}
    (h : CoversMembers given ((key, value) :: written)) (hnew : key ∉ written.map Prod.fst) :
    CoversMembers given written := by
  intro other found hfind
  apply h
  have hne : key ≠ other := by
    rintro rfl
    exact hnew (List.mem_map_of_mem (mem_of_find?_eq_some hfind))
  rw [find?, if_neg hne]
  exact hfind

/-! ## Readers -/

section

variable {α : Type} {read : Json → Option α}

/-- A reader takes a written value, and whatever covers it, to the same result. -/
def Reads (read : Json → Option α) (written : Json) (result : α) : Prop :=
  ∀ given : Json, given.Covers written → read given = some result

theorem reads_asString? (text : String) : Reads asString? (.string text) text := by
  rintro _ ⟨⟩
  rfl

theorem reads_asUInt64? (n : UInt64) : Reads asUInt64? (.ofNat n.toNat) n := by
  rintro _ ⟨⟩
  have hnat : asNat? UInt64.size (.ofNat n.toNat) = some n.toNat := if_pos n.toNat_lt
  rw [asUInt64?, hnat, Option.map_some, UInt64.ofNat_toNat]

theorem reads_asWord? {words : List (String × α)} {word : String} {result : α}
    (h : words.lookup word = some result) : Reads (asWord? words) (.string word) result := by
  rintro _ ⟨⟩
  exact h

theorem reads_asLooseWord? {words : List (String × α)} {word : String} {result : α}
    (h : words.lookup word = some result) : Reads (asLooseWord? words) (.string word) result := by
  rintro _ ⟨⟩
  exact h

theorem reads_asNullable? (text : Option String) :
    Reads (asNullable? asString?) (ofNullable .string text) text := by
  cases text with
  | none =>
      rintro _ ⟨⟩
      rfl
  | some text =>
      rintro _ ⟨⟩
      rfl

theorem mapM_of_forall₂ {given : List Json} {results : List α}
    (h : List.Forall₂ (fun json result => read json = some result) given results) :
    given.mapM read = some results := by
  induction h with
  | nil => rfl
  | cons hhead _ ih => simp [List.mapM_cons, hhead, ih]

/-- Lists are read if all that they may hold is read. -/
theorem reads_asList? {write : α → Json} (h : ∀ value, Reads read (write value) value)
    (values : List α) : Reads (asList? read) (.array (values.map write)) values := by
  intro json hcovers
  obtain ⟨given, rfl, hitems⟩ := hcovers.exists_items
  rw [List.forall₂_map_right_iff] at hitems
  exact mapM_of_forall₂ (hitems.imp fun item value hitem => h value item hitem)

variable {given written : Members} {key : String} {value : Json} {result : α}

theorem CoversMembers.required?_eq (h : CoversMembers given written)
    (hfind : find? written key = some value) (hreads : Reads read value result) :
    required? given key read = some result := by
  obtain ⟨found, hfound, hcovers⟩ := h key value hfind
  rw [required?, hfound, Option.bind_some, hreads found hcovers]

theorem CoversMembers.defaulted?_eq (h : CoversMembers given written) (default : α)
    (hfind : find? written key = some value) (hreads : Reads read value result) :
    defaulted? given key default read = some result := by
  obtain ⟨found, hfound, hcovers⟩ := h key value hfind
  rw [defaulted?, hfound]
  exact hreads found hcovers

end

end Segmentation.Json
