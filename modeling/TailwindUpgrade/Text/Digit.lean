/-
TailwindUpgrade/Text/Digit.lean

Digits, as numbers are written with them and read from them.

An integer is written with its decimal digits, after a minus sign if it is negative. Digits of every
script are read: each script that writes decimal numbers has its ten digits in a row, so a digit is
known by the zero of its script, and its value is its distance from that zero.

Escapes have hexadecimal digits. Reading takes both cases; writing gives the lower-case digits of a
number, either exactly `width` of them (`hexPadded`) or as many as it has (`hexDigits`). A digit
that was written reads back as its value (`hexValue?_hexDigit`).
-/
import TailwindUpgrade.Text.CodePoint

namespace TailwindUpgrade

/-! ### Integers -/

/-- The decimal digits of a natural number. -/
def natText (n : Nat) : Text := (Nat.toDigits 10 n).map .char

/-- The decimal digits of an integer, after a minus sign if it is negative. -/
def intText (n : Int) : Text := if n < 0 then "-" ++ natText n.natAbs else natText n.natAbs

namespace Text

/-! ### Decimal digits -/

/-- The digit zero of each script outside ASCII. -/
def zeroDigits : List Nat :=
  [0x660, 0x6f0, 0x7c0, 0x966, 0x9e6, 0xa66, 0xae6, 0xb66, 0xbe6, 0xc66, 0xce6, 0xd66, 0xde6,
   0xe50, 0xed0, 0xf20, 0x1040, 0x1090, 0x17e0, 0x1810, 0x1946, 0x19d0, 0x1a80, 0x1a90, 0x1b50,
   0x1bb0, 0x1c40, 0x1c50, 0xa620, 0xa8d0, 0xa900, 0xa9d0, 0xa9f0, 0xaa50, 0xabf0, 0xff10,
   0x104a0, 0x10d30, 0x11066, 0x110f0, 0x11136, 0x111d0, 0x112f0, 0x11450, 0x114d0, 0x11650,
   0x116c0, 0x11730, 0x118e0, 0x11950, 0x11c50, 0x11d50, 0x11da0, 0x16a60, 0x16ac0, 0x16b50,
   0x1d7ce, 0x1d7d8, 0x1d7e2, 0x1d7ec, 0x1d7f6, 0x1e140, 0x1e2f0, 0x1e950, 0x1fbf0]

/-- The value of a decimal digit. -/
def digitValue? (c : CodePoint) : Option Nat :=
  if c.isDigit then some (c.toNat - 48)
  else if c.toNat < 0x80 then none
  else (zeroDigits.find? fun z => z ≤ c.toNat && c.toNat < z + 10).map (c.toNat - ·)

/-- A decimal digit of some script. -/
def isDigit (c : CodePoint) : Bool := (digitValue? c).isSome

/-- The number that a run of digits writes; other characters count as zero. -/
def digitsValue (digits : Text) : Nat :=
  digits.foldl (fun n c => 10 * n + (digitValue? c).getD 0) 0

/-! ### Hexadecimal digits -/

/-- The value of a hexadecimal digit of either case. -/
def hexValue? (c : CodePoint) : Option Nat :=
  let n := c.toNat
  if 0x30 ≤ n ∧ n ≤ 0x39 then some (n - 0x30)
  else if 0x61 ≤ n ∧ n ≤ 0x66 then some (n - 0x61 + 10)
  else if 0x41 ≤ n ∧ n ≤ 0x46 then some (n - 0x41 + 10)
  else none

/-- A hexadecimal digit of either case. -/
def isHex (c : CodePoint) : Bool := (hexValue? c).isSome

/-- The number that a run of hexadecimal digits writes; other characters count as zero. -/
def hexNumber (digits : Text) : Nat :=
  digits.foldl (fun n c => 16 * n + (hexValue? c).getD 0) 0

/-- The lower-case digit of a value below sixteen. -/
def hexDigit (n : Nat) : CodePoint :=
  .char (if n < 10 then Char.ofNat (0x30 + n) else Char.ofNat (0x61 + (n - 10)))

/-- The last `width` hexadecimal digits of a number, the most significant first. -/
def hexPadded : Nat → Nat → Text
  | 0, _ => []
  | width + 1, n => hexPadded width (n / 16) ++ [hexDigit (n % 16)]

/-- The hexadecimal digits of a number, without leading zeros. -/
def hexDigits (n : Nat) : Text := hexPadded (Nat.log2 n / 4 + 1) n

theorem hexValue?_hexDigit : ∀ n < 16, hexValue? (hexDigit n) = some n := by decide

@[simp] theorem length_hexPadded (width n : Nat) : (hexPadded width n).length = width := by
  induction width generalizing n with
  | zero => rfl
  | succ width ih => simp [hexPadded, ih]

theorem hexNumber_concat (digits : Text) (c : CodePoint) :
    hexNumber (digits ++ [c]) = 16 * hexNumber digits + (hexValue? c).getD 0 := by
  simp [hexNumber]

/-- Digits of a fixed width give back the number, as long as it fits. -/
theorem hexNumber_hexPadded {width n : Nat} (h : n < Nat.pow 16 width) :
    hexNumber (hexPadded width n) = n := by
  induction width generalizing n with
  | zero =>
    have hn : n = 0 := Nat.lt_one_iff.mp h
    rw [hn]
    rfl
  | succ width ih =>
    have hn : n < Nat.pow 16 width * 16 := h
    have hdiv : n / 16 < Nat.pow 16 width := by omega
    rw [hexPadded, hexNumber_concat, ih hdiv, hexValue?_hexDigit _ (by omega)]
    simp only [Option.getD_some]
    omega

end Text

end TailwindUpgrade
