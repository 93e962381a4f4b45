/-
TailwindUpgrade/Number/Shortest.lean

The shortest decimal of a floating-point number: the fewest significant digits that read back as the
number, and of the two decimals of that many digits that may, the nearer one. If some decimal with
`n` digits reads back, then one of the two neighbours of the number on the grid of `n` digits does,
so only those are tried, for one digit, two digits, and so on; seventeen always suffice.
-/
import TailwindUpgrade.Number.Binary64

namespace TailwindUpgrade

/-- A decimal `digits * 10 ^ exponent`. -/
structure Decimal where
  digits : Nat
  exponent : Int
  deriving DecidableEq

namespace Binary64

/-- How many digits of a positive quotient stand before the point; zero or less when that many zeros
stand after the point. -/
def pointPosition (num den : Nat) : Int :=
  if den ≤ num then (Nat.toDigits 10 (num / den)).length
  else -(((List.range 330).find? fun zeros => den ≤ num * Nat.pow 10 (zeros + 1)).getD 0 : Nat)

/-- The decimal of `count` digits nearest to a positive number, among those of its two neighbours on
that grid which read back as the number. -/
def decimalOf? (mantissa : Nat) (exponent : Int) (count : Nat) : Option Decimal :=
  let num := mantissa * Nat.pow 2 exponent.toNat
  let den := Nat.pow 2 (-exponent).toNat
  let place := pointPosition num den - count
  let num := num * Nat.pow 10 (-place).toNat
  let den := den * Nat.pow 10 place.toNat
  let low := num / den
  let readsBack (digits : Nat) : Bool :=
    ofDecimal false digits place = .finite false mantissa exponent
  match readsBack low, readsBack (low + 1) with
  | true, true => some ⟨roundHalfEven num den, place⟩
  | true, false => some ⟨low, place⟩
  | false, true => some ⟨low + 1, place⟩
  | false, false => none

/-- The shortest decimal that reads back as a positive number. -/
def shortest (mantissa : Nat) (exponent : Int) : Decimal :=
  ((List.range 17).findSome? fun n => decimalOf? mantissa exponent (n + 1)).getD ⟨0, 0⟩

end Binary64

end TailwindUpgrade
