import Segmentation.Text.Ranges
import Segmentation.Text.UnshownTable

/-!
# Quoted texts

A text between double quotes in which every character can be seen: quotes and
backslashes are escaped, the common controls have letters, and a character with
no shape of its own is written by its code point.
-/

namespace Segmentation.Text

def codePointEscape (c : Char) : List Char :=
  '\\' :: 'u' :: '\x7b' :: (Nat.toDigits 16 c.toNat ++ ['\x7d'])

def quotedChar (c : Char) : List Char :=
  match c with
  | '\x00' => ['\\', '0']
  | '\t' => ['\\', 't']
  | '\r' => ['\\', 'r']
  | '\n' => ['\\', 'n']
  | '"' => ['\\', '"']
  | '\\' => ['\\', '\\']
  | c => if inRanges UnshownTable.ranges c then codePointEscape c else [c]

def quoted (text : String) : String :=
  String.ofList ('"' :: (text.toList.flatMap quotedChar ++ ['"']))

end Segmentation.Text
