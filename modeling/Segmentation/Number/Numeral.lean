import Segmentation.Number.Double

/-!
# Numerals

A numeral is an optional sign, decimal digits with at most one point and at
least one digit, and an optional decimal exponent.  Reading keeps the parts as
they are spelled; the views say which narrower form a numeral has and what
number it denotes.
-/

namespace Segmentation

/-- A numeral by its spelled parts: `fraction` is present exactly when there is a
point, `power` exactly when there is an exponent. -/
structure Numeral where
  negative : Bool
  whole : List Char
  fraction : Option (List Char)
  power : Option (Bool × List Char)
deriving DecidableEq

namespace Numeral

/-- An optional sign and what follows it. -/
def splitSign : List Char → Bool × List Char
  | '+' :: rest => (false, rest)
  | '-' :: rest => (true, rest)
  | rest => (false, rest)

/-- The longest run of digits at the start and what follows it. -/
def splitDigits (text : List Char) : List Char × List Char :=
  (text.takeWhile Char.isDigit, text.dropWhile Char.isDigit)

/-- A digit is no letter, so a numeral ends before a word. -/
theorem isAlpha_eq_false_of_isDigit {c : Char} (hdigit : c.isDigit) : c.isAlpha = false := by
  have hvalue : 48 ≤ c.toNat ∧ c.toNat ≤ 57 := by
    simpa [Char.isDigit, UInt32.le_iff_toNat_le] using hdigit
  have halpha : c.isAlpha = (decide (c.val ≥ 'A'.val ∧ c.val ≤ 'Z'.val) ||
      decide (c.val ≥ 'a'.val) && decide (c.val ≤ 'z'.val)) := rfl
  have hupper : 65 ≤ c.toNat → 90 < c.toNat := by omega
  have hlower : 97 ≤ c.toNat → 122 < c.toNat := by omega
  simpa [halpha, UInt32.le_iff_toNat_le] using And.intro hupper hlower

def splitFraction : List Char → Option (List Char) × List Char
  | '.' :: rest => (some (splitDigits rest).1, (splitDigits rest).2)
  | rest => (none, rest)

/-- The exponent that takes up a whole text, or no exponent for the empty text. -/
def readPower? : List Char → Option (Option (Bool × List Char))
  | [] => some none
  | mark :: rest =>
    if mark = 'e' ∨ mark = 'E' then
      let (negative, digits) := splitSign rest
      if digits ≠ [] ∧ digits.all Char.isDigit then some (some (negative, digits)) else none
    else none

/-- Reads a numeral that takes up a whole text. -/
def read? (text : List Char) : Option Numeral :=
  let (negative, unsigned) := splitSign text
  let (whole, rest) := splitDigits unsigned
  let (fraction, rest) := splitFraction rest
  if whole = [] ∧ fraction.getD [] = [] then none
  else (readPower? rest).map fun power => ⟨negative, whole, fraction, power⟩

def digitsValue (digits : List Char) : Nat :=
  digits.foldl (fun value c => 10 * value + (c.toNat - '0'.toNat)) 0

/-- Digits alone, with no point and no exponent. -/
def isInteger (n : Numeral) : Bool :=
  n.fraction.isNone && n.power.isNone

/-- Digits, or digits on both sides of a point, and no exponent. -/
def isDecimal (n : Numeral) : Bool :=
  !n.whole.isEmpty && n.fraction != some [] && n.power.isNone

def integerValue (n : Numeral) : Int :=
  if n.negative then -(digitsValue n.whole : Int) else digitsValue n.whole

def powerValue (n : Numeral) : Int :=
  match n.power with
  | none => 0
  | some (negative, digits) =>
    if negative then -(digitsValue digits : Int) else digitsValue digits

/-- The digits of a numeral as one natural number and the power of ten that scales it. -/
def scaled (n : Numeral) : Nat × Int :=
  let fraction := n.fraction.getD []
  (digitsValue (n.whole ++ fraction), n.powerValue - fraction.length)

/-- The double nearest to a numeral. -/
def toDouble (n : Numeral) : Double :=
  ⟨n.negative, Double.nearestDecimalRank n.scaled.1 n.scaled.2⟩

end Numeral

end Segmentation
