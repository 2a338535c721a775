import Segmentation.Text.CaseTable
import Segmentation.Text.Ranges

/-!
# Lowercase texts

Every character is replaced by its lowercase form.  A capital sigma takes its
final form at the end of a word: after a cased character and not before one,
where the characters that carry no case of their own are passed over.
-/

namespace Segmentation.Text

/-- The lowercase form of a character, apart from its neighbours. -/
def lowercaseChar (c : Char) : List Char :=
  if c.toNat = 0x130 then ['i', '\u0307']
  else
    match CaseTable.lowercaseRuns.find? fun (first, last, step, _) =>
        first ≤ c.toNat && c.toNat ≤ last && (c.toNat - first) % step = 0 with
    | none => [c]
    | some (first, _, _, image) => [Char.ofNat (image + (c.toNat - first))]

/-- Whether the first character that carries case information is a cased one. -/
def startsCased (text : List Char) : Bool :=
  match text.dropWhile (inRanges CaseTable.caseIgnorableRanges) with
  | [] => false
  | c :: _ => inRanges CaseTable.casedRanges c

/-- The lowercase form of `text` where `before` precedes it, nearest character first. -/
def lowercaseAfter (before : List Char) : List Char → List Char
  | [] => []
  | c :: rest =>
    (if c.toNat = 0x3a3 && startsCased before && !startsCased rest then ['ς']
      else lowercaseChar c)
      ++ lowercaseAfter (c :: before) rest

def lowercase (text : String) : String :=
  String.ofList (lowercaseAfter [] text.toList)

end Segmentation.Text
