/-!
# Double-precision numbers

A double is its sign together with the rank of its magnitude: its position among
the nonnegative doubles in ascending order, zero first.  Ranks make rounding
uniform.  The doubles of one binary exponent are `2 ^ 52` consecutive ranks, so
a mantissa that rounds up to the next power of two carries into the next
exponent without a case of its own.

Arithmetic is exact on fractions of natural numbers and rounds once, to the
nearest double and on a tie to the even rank.
-/

namespace Segmentation

structure Double where
  negative : Bool
  rank : Nat
deriving DecidableEq, Inhabited

namespace Double

/-- The number of ranks of one binary exponent. -/
def binade : Nat := Nat.pow 2 52

/-- The rank after the largest finite double. -/
def infinityRank : Nat := 2047 * binade

def isFinite (d : Double) : Bool :=
  decide (d.rank < infinityRank)

/-- The integer that, scaled by `2 ^ exponent`, gives the magnitude of a rank. -/
def mantissa (rank : Nat) : Nat :=
  if rank < binade then rank else binade + rank % binade

def exponent (rank : Nat) : Int :=
  if rank < binade then -1074 else (rank / binade : Nat) - 1075

/-- The magnitude of a rank as a fraction `(numerator, denominator)`. -/
def magnitude (rank : Nat) : Nat × Nat :=
  match exponent rank with
  | .ofNat e => (mantissa rank * Nat.pow 2 e, 1)
  | .negSucc e => (mantissa rank, Nat.pow 2 (e + 1))

/-- The fraction `numerator / denominator` divided by `base ^ power`. -/
def unscale (base numerator denominator : Nat) (power : Int) : Nat × Nat :=
  match power with
  | .ofNat p => (numerator, denominator * Nat.pow base p)
  | .negSucc p => (numerator * Nat.pow base (p + 1), denominator)

/-- The largest `l` with `2 ^ l ≤ numerator / denominator`, for positive fractions. -/
def floorLog2 (numerator denominator : Nat) : Int :=
  let estimate : Int := (numerator.log2 : Int) - (denominator.log2 : Int)
  let (n, d) := unscale 2 numerator denominator estimate
  if n < d then estimate - 1 else estimate

def roundHalfEven (numerator denominator : Nat) : Nat :=
  let quotient := numerator / denominator
  let twice := 2 * (numerator % denominator)
  if twice < denominator then quotient
  else if denominator < twice then quotient + 1
  else quotient + quotient % 2

/-- The rank of the double nearest to a fraction. -/
def nearestRank (numerator denominator : Nat) : Nat :=
  if numerator = 0 then 0
  else
    let e := max (-1074) (floorLog2 numerator denominator - 52)
    let (n, d) := unscale 2 numerator denominator e
    min infinityRank ((e + 1074).toNat * binade + roundHalfEven n d)

/-- The number of decimal digits of a natural number. -/
def decimalWidth (n : Nat) : Nat :=
  (Nat.toDigits 10 n).length

/-- The rank nearest to `digits * 10 ^ power`.  A decimal at or above `10 ^ 310` is
infinite and one below `10 ^ (-330)` is zero, whatever its digits. -/
def nearestDecimalRank (digits : Nat) (power : Int) : Nat :=
  if digits = 0 then 0
  else if 310 < power + decimalWidth digits then infinityRank
  else if power + decimalWidth digits < -330 then 0
  else
    let (n, d) := unscale 10 digits 1 (-power)
    nearestRank n d

/-- The product of two finite magnitudes. -/
def mulRank (left right : Nat) : Nat :=
  let (n, d) := magnitude left
  let (n', d') := magnitude right
  nearestRank (n * n') (d * d')

/-- The quotient of two finite magnitudes, the second one positive. -/
def divRank (left right : Nat) : Nat :=
  let (n, d) := magnitude left
  let (n', d') := magnitude right
  nearestRank (n * d') (d * n')

end Double

end Segmentation
