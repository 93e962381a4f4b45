/-
TailwindUpgrade/Number/Layout.lean

How floating-point numbers are written: as the shortest decimal, with a point, and at least one
digit on each side of it, when its leading digit stands for `10 ^ -4` to `10 ^ 15`; else as a
mantissa and an exponent of at least two digits with its sign, `1e+16` or `2.5e-07`. Zero keeps its
sign. What an infinity is called is left to the format that is written.
-/
import TailwindUpgrade.Number.Shortest
import TailwindUpgrade.Text.Digit

namespace TailwindUpgrade

/-- The exponent part of a number: its sign and at least two digits. -/
def exponentText (exponent : Int) : Text :=
  let digits := natText exponent.natAbs
  (if exponent < 0 then "e-" else "e+") ++ if digits.length < 2 then "0" ++ digits else digits

/-- A number of zeros. -/
def zerosText (count : Nat) : Text := List.replicate count (.char '0')

/-- A decimal as text: `digits` are its significant digits, and `point` of them stand before the
point. -/
def decimalText (digits : Text) (point : Int) : Text :=
  if -4 < point ∧ point ≤ 16 then
    let before := if point ≤ 0 then zerosText 1 else
      digits.take point.toNat ++ zerosText (point.toNat - digits.length)
    let after := zerosText (-point).toNat ++ digits.drop point.toNat
    before ++ "." ++ if after.isEmpty then zerosText 1 else after
  else
    let after : Text := if digits.length ≤ 1 then [] else "." ++ digits.drop 1
    digits.take 1 ++ after ++ exponentText (point - 1)

/-- The text of the size of a finite number. -/
def Binary64.sizeText (mantissa : Nat) (exponent : Int) : Text :=
  if mantissa = 0 then "0.0"
  else
    let decimal := shortest mantissa exponent
    let digits := natText decimal.digits
    let significant := (digits.reverse.dropWhile (· == .char '0')).reverse
    decimalText significant (digits.length + decimal.exponent)

/-- The text of a number, `infinity` being the name of the infinities. -/
def Binary64.text (infinity : Text) (x : Binary64) : Text :=
  let size := match x with
    | .finite _ mantissa exponent => sizeText mantissa exponent
    | .infinite _ => infinity
  if x.isNegative then "-" ++ size else size

end TailwindUpgrade
