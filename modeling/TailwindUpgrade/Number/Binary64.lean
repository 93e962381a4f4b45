/-
TailwindUpgrade/Number/Binary64.lean

Floating-point numbers of 64 bits, without the ones that are not numbers. A finite number is
`mantissa * 2 ^ exponent` after its sign. In the numbers that `nearest` makes, the mantissa is below
`2 ^ 53`, the exponent is from -1074 to 971, and the mantissa is at least `2 ^ 52` unless the
exponent is the least one; that leaves one form for each number.

`nearest` rounds a quotient of natural numbers to the nearest number, a tie to the even mantissa;
all arithmetic is exact arithmetic on natural numbers. `ofDecimal` is the reading of a decimal.
-/

namespace TailwindUpgrade

/-- A number of 64 bits: finite, as a mantissa and an exponent, or one of the two infinities. -/
inductive Binary64 where
  | finite (negative : Bool) (mantissa : Nat) (exponent : Int)
  | infinite (negative : Bool)
  deriving DecidableEq

namespace Binary64

/-- A quotient rounded to the nearest integer, a tie to the even one. -/
def roundHalfEven (num den : Nat) : Nat :=
  let low := num / den
  let twice := 2 * (num % den)
  if twice < den then low
  else if den < twice then low + 1
  else low + low % 2

/-- A quotient divided by a power of two, as its two parts. -/
def scaled (num den : Nat) (exponent : Int) : Nat × Nat :=
  (num * Nat.pow 2 (-exponent).toNat, den * Nat.pow 2 exponent.toNat)

/-- The number nearest to the quotient of two positive natural numbers. The logarithms of the two
leave two candidates for the exponent at which the quotient has 53 bits. A mantissa that rounds up
to 54 bits moves to the next exponent; beyond the last exponent lies infinity. -/
def nearest (negative : Bool) (num den : Nat) : Binary64 :=
  let least : Int := (Nat.log2 num : Int) - Nat.log2 den - 53
  let (n, d) := scaled num den least
  let exponent := max (if n / d < Nat.pow 2 53 then least else least + 1) (-1074)
  let (n, d) := scaled num den exponent
  let mantissa := roundHalfEven n d
  let (mantissa, exponent) :=
    if mantissa = Nat.pow 2 53 then (Nat.pow 2 52, exponent + 1) else (mantissa, exponent)
  if 971 < exponent then .infinite negative else .finite negative mantissa exponent

/-- The number nearest to `digits * 10 ^ exponent`. Exponents far outside the range of the numbers
are settled by the length of the decimal alone, which keeps the arithmetic small. -/
def ofDecimal (negative : Bool) (digits : Nat) (exponent : Int) : Binary64 :=
  if digits = 0 then .finite negative 0 0
  else if 400 < exponent then .infinite negative
  else if exponent + Nat.log2 digits < -400 then .finite negative 0 0
  else nearest negative (digits * Nat.pow 10 exponent.toNat) (Nat.pow 10 (-exponent).toNat)

/-- Whether a number is finite. -/
def isFinite : Binary64 → Bool
  | .finite .. => true
  | .infinite _ => false

/-- Whether a number has its sign bit set. -/
def isNegative : Binary64 → Bool
  | .finite negative .. | .infinite negative => negative

end Binary64

end TailwindUpgrade
