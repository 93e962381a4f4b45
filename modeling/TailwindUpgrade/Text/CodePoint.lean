/-
TailwindUpgrade/Text/CodePoint.lean

Code points, and texts as sequences of them. A code point is a character or a surrogate. UTF-16
writes a character beyond U+FFFF as a high and a low surrogate; in a text they only stand where
escapes have named them, and there they stay what they are: two code points, neither of which is a
letter, and not the character that they encode.

`Text.toString` shows a text to the outside, where a pair of surrogates cannot be told from its
character. In UTF-8 there are no surrogates, so only a text without them can be written in it
(`Text.toUTF8?`). The character classes of all scripts are tabulated as ranges of code points
(`Text.inRanges`).
-/

namespace TailwindUpgrade

/-- A code point: a character, or a surrogate, given by its distance from the first one. -/
inductive CodePoint where
  | char (c : Char)
  | surrogate (n : Fin 0x800)
  deriving DecidableEq

namespace CodePoint

instance : Coe Char CodePoint := ⟨char⟩

/-- The number of a code point. -/
def toNat : CodePoint → Nat
  | char c => c.toNat
  | surrogate n => 0xd800 + n

/-- The code point of a number. -/
def ofNat (n : Nat) : CodePoint :=
  if h : 0xd800 ≤ n ∧ n < 0xe000 then surrogate ⟨n - 0xd800, by omega⟩ else char (Char.ofNat n)

/-- A code point is the one that has its number. -/
@[simp] theorem ofNat_toNat (c : CodePoint) : ofNat c.toNat = c := by
  rcases c with c | n
  · have hvalid : ¬(0xd800 ≤ c.toNat ∧ c.toNat < 0xe000) := by
      rcases c.valid with h | h <;> simp only [Char.toNat, UInt32.toNat] at * <;> omega
    rw [toNat, ofNat, dif_neg hvalid, Char.ofNat_toNat]
  · have hrange : 0xd800 ≤ 0xd800 + n.val ∧ 0xd800 + n.val < 0xe000 := by
      have := n.isLt
      omega
    rw [toNat, ofNat, dif_pos hrange]
    simp

/-- The character that a code point is. -/
def char? : CodePoint → Option Char
  | char c => some c
  | surrogate _ => none

/-- Whether a code point is a character of a class. -/
def isIn (p : Char → Bool) (c : CodePoint) : Bool := c.char?.any p

/-- An ASCII letter. -/
def isAlpha (c : CodePoint) : Bool := c.isIn Char.isAlpha

/-- An ASCII digit. -/
def isDigit (c : CodePoint) : Bool := c.isIn Char.isDigit

/-- An ASCII letter or digit. -/
def isAlphanum (c : CodePoint) : Bool := c.isIn Char.isAlphanum

/-- An ASCII capital. -/
def isUpper (c : CodePoint) : Bool := c.isIn Char.isUpper

/-- A small ASCII letter. -/
def isLower (c : CodePoint) : Bool := c.isIn Char.isLower

/-- An ASCII capital made small; other code points stay. -/
def toLower : CodePoint → CodePoint
  | char c => char c.toLower
  | surrogate n => surrogate n

/-- A small ASCII letter made a capital; other code points stay. -/
def toUpper : CodePoint → CodePoint
  | char c => char c.toUpper
  | surrogate n => surrogate n

/-- The character that shows a code point standing alone: the replacement character for a
surrogate. -/
def toChar (c : CodePoint) : Char := c.char?.getD '\ufffd'

/-- The character that a high and a low surrogate encode. -/
def pair? : CodePoint → CodePoint → Option Char
  | surrogate high, surrogate low =>
    if high < 0x400 ∧ 0x400 ≤ low then
      some (Char.ofNat (0x10000 + high * 0x400 + (low - 0x400)))
    else none
  | _, _ => none

end CodePoint

/-- A text: a sequence of code points. -/
abbrev Text := List CodePoint

namespace Text

/-- The text of a string. -/
def ofString (s : String) : Text := s.toList.map .char

instance : Coe String Text := ⟨ofString⟩

/-- The characters of a text, a pair of surrogates being the one character it encodes. -/
def chars : Text → List Char
  | [] => []
  | [c] => [c.toChar]
  | c :: d :: rest =>
    match CodePoint.pair? c d with
    | some joined => joined :: chars rest
    | none => c.toChar :: chars (d :: rest)

/-- A text as it is shown to the outside. -/
def toString (s : Text) : String := String.ofList (chars s)

/-- A text in UTF-8, if it has no surrogates. -/
def toUTF8? (s : Text) : Option ByteArray :=
  (s.mapM CodePoint.char?).map fun chars => (String.ofList chars).toUTF8

/-- Whether a code point lies in one of the ranges, which are closed, sorted and do not overlap. -/
def inRanges : List (Nat × Nat) → Nat → Bool
  | [], _ => false
  | (low, high) :: others, n =>
    if n < low then false else if n ≤ high then true else inRanges others n

end Text

end TailwindUpgrade
