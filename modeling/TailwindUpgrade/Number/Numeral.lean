/-
TailwindUpgrade/Number/Numeral.lean

Numerals as they are written in a source text: a sign, digits with at most one point among or before
them, and an exponent. At least one digit is written, and digits of every script count.

A numeral of digits alone is an integer, if the floating-point number nearest to it is finite; every
other numeral is that floating-point number. An integer is read from `maxDigits` digits at most;
since a numeral with more significant digits than that has no finite number near it, only one that
begins with zeros can be too long.
-/
import TailwindUpgrade.Number.Binary64
import TailwindUpgrade.Text.Digit

namespace TailwindUpgrade

/-- The parts of a numeral. -/
structure Numeral where
  negative : Bool
  whole : Text
  fraction : Option Text
  exponent : Option Int
  deriving DecidableEq

namespace Numeral

/-- The most digits that an integer is read from. -/
def maxDigits : Nat := 4300

/-- A sign at the front of a text, as whether it is a minus, and the text after it. -/
def sign : Text → Bool × Text
  | .char '-' :: rest => (true, rest)
  | .char '+' :: rest => (false, rest)
  | rest => (false, rest)

/-- The exponent that makes up the whole of a text; the empty text is no exponent at all. -/
def exponent? : Text → Option (Option Int)
  | [] => some none
  | c :: rest =>
    let (negative, digits) := sign rest
    if (c = 'e' ∨ c = 'E') ∧ digits ≠ [] ∧ digits.all Text.isDigit then
      let size : Int := Text.digitsValue digits
      some (some (if negative then -size else size))
    else none

/-- Reads a text that is a numeral from its first to its last character. -/
def read? (s : Text) : Option Numeral :=
  let (negative, body) := sign s
  let whole := body.takeWhile Text.isDigit
  match body.dropWhile Text.isDigit with
  | .char '.' :: rest =>
    let fraction := rest.takeWhile Text.isDigit
    if whole = [] ∧ fraction = [] then none
    else (exponent? (rest.dropWhile Text.isDigit)).map fun e => ⟨negative, whole, some fraction, e⟩
  | rest =>
    if whole = [] then none
    else (exponent? rest).map fun e => ⟨negative, whole, none, e⟩

/-- The floating-point number nearest to a numeral. -/
def nearest (n : Numeral) : Binary64 :=
  let fraction := n.fraction.getD []
  .ofDecimal n.negative (Text.digitsValue (n.whole ++ fraction))
    (n.exponent.getD 0 - fraction.length)

/-- The integer that a numeral of digits alone writes. -/
def integer? (n : Numeral) : Option Int :=
  match n.fraction, n.exponent with
  | none, none =>
    let size : Int := Text.digitsValue n.whole
    some (if n.negative then -size else size)
  | _, _ => none

end Numeral

end TailwindUpgrade
