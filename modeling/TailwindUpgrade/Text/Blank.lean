/-
TailwindUpgrade/Text/Blank.lean

Blank characters, and the two things every reader of configuration text does with them: trimming
them off the ends of a text and splitting a text into the words between them.

`isBlank` is the Unicode class of separating characters: the ASCII spaces and the four information
separators, the next-line control, and the space separators and line separators of all scripts.
It leaves out the zero-width space, the byte order mark and the Mongolian vowel separator, which
have no width or are format characters.
-/
import TailwindUpgrade.Text.CodePoint

namespace TailwindUpgrade.Text

/-- A character that separates words: an ASCII space or separator control, the next-line control,
or a space or line separator of some script. -/
def isBlank (c : CodePoint) : Bool :=
  let n := c.toNat
  (0x09 ≤ n && n ≤ 0x0d) || (0x1c ≤ n && n ≤ 0x20) || n == 0x85 || n == 0xa0 || n == 0x1680 ||
    (0x2000 ≤ n && n ≤ 0x200a) || n == 0x2028 || n == 0x2029 || n == 0x202f || n == 0x205f ||
    n == 0x3000

/-- A number of spaces. -/
def spaces (count : Nat) : Text := List.replicate count (.char ' ')

/-- The text from its first character that is not blank. -/
def stripStart (s : Text) : Text := s.dropWhile isBlank

/-- The text up to its last character that is not blank. -/
def stripEnd (s : Text) : Text := (s.reverse.dropWhile isBlank).reverse

/-- The text between its first and its last character that are not blank. -/
def strip (s : Text) : Text := stripEnd (stripStart s)

/-- The text after the blanks at its front, of which there has to be one at least. -/
def afterBlanks? : Text → Option Text
  | [] => none
  | c :: rest => if isBlank c then some (stripStart rest) else none

/-- The maximal runs of characters that are not blank, in order. -/
def words (s : Text) : List Text :=
  (s.splitBy fun a b => isBlank a == isBlank b).filter fun run => run.any fun c => !isBlank c

theorem stripStart_of_not_isBlank {c : CodePoint} {s : Text} (h : isBlank c = false) :
    stripStart (c :: s) = c :: s := by
  simp [stripStart, h]

theorem stripStart_of_isBlank {c : CodePoint} {s : Text} (h : isBlank c = true) :
    stripStart (c :: s) = stripStart s := by
  simp [stripStart, h]

theorem stripEnd_concat {c : CodePoint} {s : Text} (h : isBlank c = false) :
    stripEnd (s ++ [c]) = s ++ [c] := by
  simp [stripEnd, h]

end TailwindUpgrade.Text
