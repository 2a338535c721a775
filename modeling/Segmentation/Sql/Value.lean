import Segmentation.Number.Numeral
import Segmentation.Number.Shortest
import Segmentation.Text.Blank

/-!
# SQL values

The values a statement compares with.  A number is kept in the narrowest form
that loses nothing of what was typed: a 64-bit integer, a double whose text is
what was typed, or the typed decimal itself.
-/

namespace Segmentation.Sql

inductive Value
  | int (value : Int)
  | float (value : Double)
  | numeric (digits : String)
  | text (value : String)
deriving DecidableEq, Inhabited

/-- Doubles are written with all their places and a point only before a fraction;
of two equally near decimals the upper one is taken. -/
def literalStyle : NumeralStyle where
  tie := .up
  positional _ := true
  integralPoint := false

namespace Value

def isInt64 (value : Int) : Bool :=
  Int64.minValue.toInt ≤ value && value ≤ Int64.maxValue.toInt

/-- The value of a typed number.  Blanks around it do not count.  A text that is no
numeral, or whose number is too large to be finite, stays text as it was typed. -/
def ofTyped (raw : String) : Value :=
  let typed := Text.trim raw.toList
  match Numeral.read? typed with
  | none => .text raw
  | some numeral =>
    if numeral.isInteger && isInt64 numeral.integerValue then .int numeral.integerValue
    else
      let double := numeral.toDouble
      if numeral.isDecimal then
        if (literalStyle.write double).toList = typed then .float double
        else .numeric (String.ofList typed)
      else if double.isFinite then .float double
      else .text raw

def isNumeric : Value → Bool
  | .text _ => false
  | _ => true

/-- A text with every single quote written twice. -/
def doubleQuotes (quote : Char) (text : List Char) : List Char :=
  text.flatMap fun c => if c = quote then [c, c] else [c]

/-- The value as it stands in a statement. -/
def literal : Value → String
  | .int value => toString value
  | .float value => literalStyle.write value
  | .numeric digits => digits
  | .text value => String.ofList ('\'' :: (doubleQuotes '\'' value.toList ++ ['\'']))

end Value

end Segmentation.Sql
