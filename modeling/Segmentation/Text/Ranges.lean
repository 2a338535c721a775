/-!
# Code point ranges

Character properties are lists of closed ranges of code points.
-/

namespace Segmentation.Text

def inRanges (ranges : List (Nat × Nat)) (c : Char) : Bool :=
  ranges.any fun (first, last) => first ≤ c.toNat && c.toNat ≤ last

end Segmentation.Text
