import Segmentation.Json.Basic
import Segmentation.Number.Shortest

/-!
# Compact JSON text

Values are written without blanks, members in their order.  Texts escape only
what must be escaped.
-/

namespace Segmentation.Json

/-- Reals are written with the nearest shortest decimal, the even one of two, with
all their places from `10 ^ (-5)` up to `10 ^ 15` and a point in any case. -/
def realStyle : NumeralStyle where
  tie := .even
  positional exponent := -6 < exponent && exponent < 16
  integralPoint := true

def hexDigit (n : Nat) : Char :=
  Nat.digitChar n

def escapedChar (c : Char) : List Char :=
  match c with
  | '"' => ['\\', '"']
  | '\\' => ['\\', '\\']
  | '\x08' => ['\\', 'b']
  | '\x0c' => ['\\', 'f']
  | '\n' => ['\\', 'n']
  | '\r' => ['\\', 'r']
  | '\t' => ['\\', 't']
  | c =>
    if c.toNat < 0x20 then
      ['\\', 'u', '0', '0', hexDigit (c.toNat / 16), hexDigit (c.toNat % 16)]
    else [c]

def textLiteral (text : String) : String :=
  String.ofList ('"' :: (text.toList.flatMap escapedChar ++ ['"']))

mutual

/-- The compact text of a value. -/
def render : Json → String
  | .null => "null"
  | .bool true => "true"
  | .bool false => "false"
  | .integer value => toString value
  | .real value => realStyle.write value
  | .string value => textLiteral value
  | .array items => "[" ++ renderItems items ++ "]"
  | .object members => "\x7b" ++ renderMembers members ++ "\x7d"

def renderItems : List Json → String
  | [] => ""
  | [item] => render item
  | item :: rest => render item ++ "," ++ renderItems rest

def renderMembers : List (String × Json) → String
  | [] => ""
  | [(key, value)] => textLiteral key ++ ":" ++ render value
  | (key, value) :: rest => textLiteral key ++ ":" ++ render value ++ "," ++ renderMembers rest

end

end Segmentation.Json
