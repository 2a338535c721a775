/-!
# Byte spans

A span marks a part of a text by byte offsets into its UTF-8 form.  Cutting it
out succeeds only if both ends fall between two characters of the text.
-/

namespace Segmentation

structure Span where
  start : Nat
  stop : Nat
deriving DecidableEq

namespace Span

/-- The number of bytes of a text. -/
def byteLength : List Char → Nat
  | [] => 0
  | c :: rest => c.utf8Size + byteLength rest

/-- What follows the first `count` bytes. -/
def dropBytes? : Nat → List Char → Option (List Char)
  | 0, text => some text
  | _ + 1, [] => none
  | count + 1, c :: rest =>
    if c.utf8Size ≤ count + 1 then dropBytes? (count + 1 - c.utf8Size) rest else none

/-- The first `count` bytes. -/
def takeBytes? : Nat → List Char → Option (List Char)
  | 0, _ => some []
  | _ + 1, [] => none
  | count + 1, c :: rest =>
    if c.utf8Size ≤ count + 1 then
      (takeBytes? (count + 1 - c.utf8Size) rest).map (c :: ·)
    else none

/-- The part of a text that a span marks. -/
def cut? (span : Span) (text : String) : Option String :=
  if span.start ≤ span.stop then
    (dropBytes? span.start text.toList).bind fun rest =>
      (takeBytes? (span.stop - span.start) rest).map String.ofList
  else none

end Span

end Segmentation
