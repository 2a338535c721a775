import Segmentation.Text.Span
import Mathlib.Data.String.Basic

/-!
# Cutting texts by bytes

The bytes of a text are those of its parts.  So an offset that counts the bytes of the
first part of a text falls between two characters, and the span from there over the bytes
of the second part cuts out just that part.
-/

namespace Segmentation.Span

theorem byteLength_append (left right : List Char) :
    byteLength (left ++ right) = byteLength left + byteLength right := by
  induction left with
  | nil => exact (Nat.zero_add _).symm
  | cons c left ih => rw [List.cons_append, byteLength, byteLength, ih, Nat.add_assoc]

theorem byteLength_eq_utf8Len (text : List Char) : byteLength text = String.utf8Len text := by
  induction text with
  | nil => rfl
  | cons c rest ih => rw [byteLength, String.utf8Len_cons, ih, Nat.add_comm]

theorem utf8ByteSize_ofList (text : List Char) :
    (String.ofList text).utf8ByteSize = byteLength text := by
  rw [String.utf8ByteSize_ofList, byteLength_eq_utf8Len]

theorem utf8ByteSize_eq (text : String) : text.utf8ByteSize = byteLength text.toList := by
  rw [← utf8ByteSize_ofList, String.ofList_toList]

/-- A character takes up its bytes, at least one, and leaves those of the rest. -/
theorem exists_byteLength_cons (c : Char) (rest : List Char) :
    ∃ count, byteLength (c :: rest) = count + 1 ∧ c.utf8Size ≤ count + 1 ∧
      count + 1 - c.utf8Size = byteLength rest := by
  have hpos := c.utf8Size_pos
  have hcons : byteLength (c :: rest) = c.utf8Size + byteLength rest := rfl
  refine ⟨c.utf8Size + byteLength rest - 1, ?_, ?_, ?_⟩ <;> omega

/-- Dropping the bytes of the first part of a text leaves the other part. -/
theorem dropBytes?_append (left right : List Char) :
    dropBytes? (byteLength left) (left ++ right) = some right := by
  induction left with
  | nil => exact dropBytes?.eq_1 right
  | cons c left ih =>
      obtain ⟨count, hcount, hfits, hleft⟩ := exists_byteLength_cons c left
      rw [hcount, List.cons_append, dropBytes?, if_pos hfits, hleft, ih]

/-- Taking the bytes of the first part of a text gives that part. -/
theorem takeBytes?_append (left right : List Char) :
    takeBytes? (byteLength left) (left ++ right) = some left := by
  induction left with
  | nil => exact takeBytes?.eq_1 right
  | cons c left ih =>
      obtain ⟨count, hcount, hfits, hleft⟩ := exists_byteLength_cons c left
      rw [hcount, List.cons_append, takeBytes?, if_pos hfits, hleft, ih, Option.map_some]

/-- A span from the end of the first part of a text to the end of the second one cuts out the
second part. -/
theorem cut?_append (before part after : String) :
    (Span.mk before.utf8ByteSize (before.utf8ByteSize + part.utf8ByteSize)).cut?
      (before ++ part ++ after) = some part := by
  have hdrop := dropBytes?_append before.toList (part.toList ++ after.toList)
  have htake := takeBytes?_append part.toList after.toList
  rw [cut?, if_pos (Nat.le_add_right _ _), Nat.add_sub_cancel_left, utf8ByteSize_eq before,
    utf8ByteSize_eq part, String.toList_append, String.toList_append, List.append_assoc, hdrop,
    Option.bind_some, htake, Option.map_some, String.ofList_toList]

/-- A span of a text whose ends fall between two characters of it, or at its own ends. -/
structure IsWithin (span : Span) (text : String) : Prop where
  ordered : span.start ≤ span.stop
  bounded : span.stop ≤ text.utf8ByteSize
  start : (String.Pos.Raw.mk span.start).IsValid text
  stop : (String.Pos.Raw.mk span.stop).IsValid text

theorem isWithin_append (before part after : String) :
    (Span.mk before.utf8ByteSize (before.utf8ByteSize + part.utf8ByteSize)).IsWithin
      (before ++ part ++ after) where
  ordered := Nat.le_add_right _ _
  bounded := by
    rw [String.utf8ByteSize_append, String.utf8ByteSize_append]
    exact Nat.le_add_right _ _
  start := by
    rw [String.append_assoc]
    exact String.Pos.Raw.isValid_rawEndPos.append_right _
  stop := by
    rw [← String.utf8ByteSize_append]
    exact String.Pos.Raw.isValid_rawEndPos.append_right _

end Segmentation.Span
