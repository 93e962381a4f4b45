/-
TailwindUpgrade/Theme/ColorReference.lean

References to the colours of a daisyUI theme. Version 4 kept the three components of a colour in a
variable with a short name, to be put between `oklch(` and `)`; version 5 keeps whole colours in
variables with long names. A reference of the old form is upgraded to the new one, short names to
long ones and other names as they are; all other text stays.
-/
import TailwindUpgrade.Literal.Display
import TailwindUpgrade.Text.Blank
import TailwindUpgrade.Text.Search
import TailwindUpgrade.Text.Word

namespace TailwindUpgrade.Theme

/-- The long names of the colours that have short ones. -/
def longNames : List (Text × Text) :=
  [("p", "primary"), ("pc", "primary-content"), ("s", "secondary"), ("sc", "secondary-content"),
    ("a", "accent"), ("ac", "accent-content"), ("n", "neutral"), ("nc", "neutral-content"),
    ("b1", "base-100"), ("b2", "base-200"), ("b3", "base-300"), ("bc", "base-content"),
    ("in", "info"), ("inc", "info-content"), ("su", "success"), ("suc", "success-content"),
    ("wa", "warning"), ("wac", "warning-content"), ("er", "error"), ("erc", "error-content")]

/-- The name of a colour in version 5. -/
def longName (name : Text) : Text :=
  (longNames.lookup name).getD name

/-- A character in the name of a variable. -/
def isVariableChar (c : CodePoint) : Bool := Text.isWord c || c == '-'

/-- What stands before the name in a reference of the old form. -/
def referenceStart : Text := "oklch(var(--"

/-- A reference of the old form at the front of a text: the name of its variable. -/
def reference? : Text.Matcher Text := fun s => do
  let body ← Text.after? referenceStart s
  let name := body.takeWhile isVariableChar
  let after ← Text.after? "))" (body.dropWhile isVariableChar)
  if name = [] then none else some (name, after)

/-- A reference of the new form. -/
def writeReference (name : Text) : Text :=
  "var(--color-" ++ longName name ++ ")"

/-- The text with every reference of the old form upgraded to the new one. -/
def upgradeColors (css : Text) : Text := Text.replaceMatches reference? writeReference css

/-- A colour as it is written in a theme: its text, trimmed, with references upgraded. A colour
that holds no variable, such as a plain `oklch` colour, holds no reference and is only trimmed. -/
def colorText (color : Text) : Text := upgradeColors (Text.strip color)

end TailwindUpgrade.Theme
