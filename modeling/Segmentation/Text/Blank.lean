import Segmentation.Text.Ranges

/-!
# Blank characters

The characters with the Unicode property White_Space, and trimming by them.
-/

namespace Segmentation.Text

def blankRanges : List (Nat × Nat) :=
  [(0x9, 0xd), (0x20, 0x20), (0x85, 0x85), (0xa0, 0xa0), (0x1680, 0x1680), (0x2000, 0x200a),
   (0x2028, 0x2029), (0x202f, 0x202f), (0x205f, 0x205f), (0x3000, 0x3000)]

def isBlank (c : Char) : Bool :=
  inRanges blankRanges c

/-- A text without the blank characters at its two ends. -/
def trim (text : List Char) : List Char :=
  ((text.dropWhile isBlank).reverse.dropWhile isBlank).reverse

def trimmed (text : String) : String :=
  String.ofList (trim text.toList)

/-- Whether a text has nothing but blank characters. -/
def isBlankText (text : String) : Bool :=
  text.toList.all isBlank

theorem dropWhile_isBlank_eq_nil_iff (text : List Char) :
    text.dropWhile isBlank = [] ↔ text.all isBlank := by
  induction text with
  | nil => exact ⟨fun _ => rfl, fun _ => rfl⟩
  | cons c rest ih =>
      cases hblank : isBlank c with
      | true => simp only [List.dropWhile_cons, hblank, if_true, ih, List.all_cons, Bool.true_and]
      | false => simp [hblank]

/-- A text is blank exactly if nothing is left of it when it is trimmed. -/
theorem isBlankText_iff (text : String) : isBlankText text ↔ trimmed text = "" := by
  have hrest : (text.toList.dropWhile isBlank).all isBlank = text.toList.all isBlank := by
    calc (text.toList.dropWhile isBlank).all isBlank
        = (text.toList.takeWhile isBlank ++ text.toList.dropWhile isBlank).all isBlank := by
          rw [List.all_append, List.all_takeWhile, Bool.true_and]
      _ = text.toList.all isBlank := by rw [List.takeWhile_append_dropWhile]
  rw [trimmed, String.ofList_eq_empty_iff, trim, List.reverse_eq_nil_iff,
    dropWhile_isBlank_eq_nil_iff, List.all_reverse, hrest, isBlankText]

end Segmentation.Text
