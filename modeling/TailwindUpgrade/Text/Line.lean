/-
TailwindUpgrade/Text/Line.lean

Lines of text. A line ends at a line break (`isLineBreak`, or the pair of carriage return and line
feed, which is one break) or at the end of the text. A break at the very end opens no further line,
so the empty text has no lines and `lines "a\n"` is the one line `a`.

`joinLines` writes lines back with one line feed between neighbours. `lineFeeds` is the form in
which files are read: carriage returns, alone or before a line feed, become line feeds. `block` is
how lines are written in braces, here and in every stylesheet.
-/
import TailwindUpgrade.Text.CodePoint

namespace TailwindUpgrade.Text

/-- A character that ends a line by itself. -/
def isLineBreak (c : CodePoint) : Bool :=
  let n := c.toNat
  (0x0a ≤ n && n ≤ 0x0d) || (0x1c ≤ n && n ≤ 0x1e) || n == 0x85 || n == 0x2028 || n == 0x2029

/-- The lines of a text, without the breaks that end them. -/
def lines : Text → List Text
  | [] => []
  | .char '\r' :: .char '\n' :: rest => [] :: lines rest
  | c :: rest =>
    if isLineBreak c then [] :: lines rest
    else
      match lines rest with
      | [] => [[c]]
      | line :: others => (c :: line) :: others

/-- Lines written one after another, a line feed between neighbours. -/
def joinLines (ls : List Text) : Text := List.intercalate ['\n'] ls

/-- Lines in braces after a head, which stands behind a margin like the closing brace. -/
def block (margin head : Text) (lines : List Text) : List Text :=
  (margin ++ head ++ " \x7b") :: lines ++ [margin ++ "\x7d"]

/-- A text with every carriage return, alone or before a line feed, turned into one line feed. -/
def lineFeeds : Text → Text
  | [] => []
  | .char '\r' :: .char '\n' :: rest => .char '\n' :: lineFeeds rest
  | c :: rest => (if c = '\r' then .char '\n' else c) :: lineFeeds rest

/-- A text without line breaks is one line, unless it is empty. -/
theorem lines_of_no_break {s : Text} (hne : s ≠ []) (h : ∀ c ∈ s, isLineBreak c = false) :
    lines s = [s] := by
  induction s with
  | nil => exact absurd rfl hne
  | cons c rest ih =>
    have hc : isLineBreak c = false := h c (by simp)
    have hcr : c ≠ '\r' := by
      rintro rfl
      revert hc
      decide
    rw [lines]
    · cases rest with
      | nil => simp [hc, lines]
      | cons d more => simp [hc, ih (by simp) fun x hx => h x (by simp [hx])]
    · intro r hr
      exact absurd hr hcr

end TailwindUpgrade.Text
