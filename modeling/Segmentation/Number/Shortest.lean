import Segmentation.Number.Double

/-!
# Shortest decimals

The text of a double uses the fewest decimal digits that read back as the same
double, and among those the decimal nearest to it.  A grid of decimals with a
fixed number of digits holds such a decimal only if it holds one of the two
neighbours of the exact value, so the search looks at two candidates per grid.
The exact decimal expansion is kept as the last resort; it always reads back.

How the digits are written, and which of two equally near decimals is taken, is
the choice of a `NumeralStyle`.
-/

namespace Segmentation

/-- Which of two equally near decimals is written. -/
inductive Tie
  | up
  | even
deriving DecidableEq

/-- A decimal `digits * 10 ^ power`. -/
structure Decimal where
  digits : Nat
  power : Int
deriving DecidableEq, Inhabited

namespace Decimal

/-- The place `l` with `10 ^ (l - 1) ≤ numerator / denominator < 10 ^ l`. -/
def leadingPlace (numerator denominator : Nat) : Int :=
  if denominator ≤ numerator then
    (Double.decimalWidth (numerator / denominator) : Int)
  else
    let width := Double.decimalWidth (denominator / numerator)
    if denominator ≤ numerator * Nat.pow 10 (width - 1) then 2 - (width : Int)
    else 1 - (width : Int)

def readsBack (rank : Nat) (decimal : Decimal) : Bool :=
  Double.nearestDecimalRank decimal.digits decimal.power == rank

/-- The decimal of at most `width` digits that is nearest to a rank among those
neighbours that read back as it. -/
def onGrid? (tie : Tie) (rank width : Nat) : Option Decimal :=
  let (numerator, denominator) := Double.magnitude rank
  let power := leadingPlace numerator denominator - (width : Int)
  let (n, d) := Double.unscale 10 numerator denominator power
  let below : Decimal := ⟨n / d, power⟩
  let above : Decimal := ⟨n / d + 1, power⟩
  match readsBack rank below, readsBack rank above with
  | false, false => none
  | true, false => some below
  | false, true => some above
  | true, true =>
    let twice := 2 * (n % d)
    if twice < d then some below
    else if d < twice then some above
    else match tie with
      | .up => some above
      | .even => some (if below.digits % 2 = 0 then below else above)

/-- The exact value of a rank. -/
def exact (rank : Nat) : Decimal :=
  match Double.exponent rank with
  | .ofNat e => ⟨Double.mantissa rank * Nat.pow 2 e, 0⟩
  | .negSucc e => ⟨Double.mantissa rank * Nat.pow 5 (e + 1), .negSucc e⟩

/-- The shortest decimal that reads back as a rank. -/
def shortest (tie : Tie) (rank : Nat) : Decimal :=
  ((List.range 17).findSome? fun i => onGrid? tie rank (i + 1)).getD (exact rank)

/-- The significant digits of a positive decimal, with no zero at the end, and the
number of places before the point. -/
def significant (decimal : Decimal) : List Char × Int :=
  let digits := Nat.toDigits 10 decimal.digits
  ((digits.reverse.dropWhile (· == '0')).reverse, decimal.power + digits.length)

end Decimal

/-- How a double is written. -/
structure NumeralStyle where
  tie : Tie
  /-- The decimal exponents that are written with all their places. -/
  positional : Int → Bool
  /-- Whether an integral number ends in `.0`. -/
  integralPoint : Bool

namespace NumeralStyle

def positionalText (style : NumeralStyle) (digits : List Char) (place : Int) : List Char :=
  match place with
  | .negSucc p => '0' :: '.' :: (List.replicate (p + 1) '0' ++ digits)
  | .ofNat 0 => '0' :: '.' :: digits
  | .ofNat p =>
    if digits.length ≤ p then
      digits ++ List.replicate (p - digits.length) '0'
        ++ (if style.integralPoint then ['.', '0'] else [])
    else digits.take p ++ '.' :: digits.drop p

def exponentText (digits : List Char) (exponent : Int) : List Char :=
  digits.take 1 ++ (if digits.length ≤ 1 then [] else '.' :: digits.drop 1)
    ++ 'e' :: (if exponent < 0 then '-' else '+') :: Nat.toDigits 10 exponent.natAbs

def magnitudeText (style : NumeralStyle) (rank : Nat) : List Char :=
  if rank = 0 then '0' :: (if style.integralPoint then ['.', '0'] else [])
  else if rank < Double.infinityRank then
    let (digits, place) := (Decimal.shortest style.tie rank).significant
    if style.positional (place - 1) then style.positionalText digits place
    else exponentText digits (place - 1)
  else if rank = Double.infinityRank then "inf".toList
  else "NaN".toList

/-- The text of a double; only a number that is not one has no sign. -/
def write (style : NumeralStyle) (d : Double) : String :=
  String.ofList
    ((if d.negative && d.rank ≤ Double.infinityRank then ['-'] else [])
      ++ style.magnitudeText d.rank)

end NumeralStyle

end Segmentation
