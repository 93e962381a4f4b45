/-
TailwindUpgrade/Config/Theme.lean

The theme of a configuration. Its screens have to be known, since they become media queries, and so
has the default style of the typography plugin; all else in a theme is read if it can be and kept as
its source if not.

A screen is a text, or an object with a minimum width; a number counts as the text it is written as.
Typography may be given by a function, of which only the result is read.
-/
import TailwindUpgrade.Config.Part
import TailwindUpgrade.Literal.Display
import TailwindUpgrade.Text.Word

namespace TailwindUpgrade.Config

/-! ### Screens -/

/-- The width of a screen. -/
def screen (name : Text) (value : Value) : Reported Notice (Option Value) :=
  match value with
  | .str width => .silent (some (.str width))
  | .int _ | .float _ => ⟨some (.str value.display), [.numericScreen name value.display]⟩
  | other =>
    match other.field? "min" with
    | some (.str width) => .silent (some (.str width))
    | _ => ⟨none, [.unsupportedScreen name]⟩

/-- Screens from the value that their source has, all widths being texts; nothing if it is no
object. -/
def screensOf (raw : Text) : Value → Reported Notice (Option Value)
  | .null => .silent none
  | .object fields =>
    ⟨some (.object (fields.filterMap fun (name, value) =>
      (screen name value).value.map fun width => (name, width))),
      fields.flatMap fun (name, value) => (screen name value).notices⟩
  | _ => ⟨none, [.screensNoObject (preview raw)]⟩

/-- The screens of a theme. -/
def screens (raw : Text) : Attempt (Option Value) :=
  (strict "theme.screens" raw).andThen fun value => .whole (screensOf raw value)

/-! ### Typography -/

/-- The text after the beginning of a function, through its arrow and the blanks after it. The
parameters are a name, or what stands in round brackets. -/
def afterArrow? (s : Text) : Option Text := do
  let s ← match s with
    | .char '(' :: rest => Text.after? ")" (rest.dropWhile (· ≠ .char ')'))
    | _ => (Text.identifier? s).map (·.2)
  let s ← Text.after? "=>" (Text.stripStart s)
  return Text.stripStart s

/-- A text without the round brackets around it, if there are any. -/
def insideParens (s : Text) : Text :=
  if s.head? = some (.char '(') ∧ s.getLast? = some (.char ')') then
    Text.strip (s.drop 1).dropLast
  else s

/-- The source of the overrides: the result of the function if they are given by one. -/
def typographySource (raw : Text) : Text :=
  match afterArrow? raw with
  | some body => insideParens (Text.strip body)
  | none => raw

/-- Typography without overrides. -/
def noTypography : Value := .object [("DEFAULT", .object [("css", .object [])])]

/-- Whether overrides hold an object for the default style. -/
def hasDefaultStyle (typography : Value) : Bool :=
  (((typography.field? "DEFAULT").bind (Value.field? "css")).bind Value.fields?).isSome

/-- Overrides from the value that their source has, with an object for the default style in any
case. -/
def typographyOf : Value → Reported Notice Value
  | .null => .silent noTypography
  | .object fields =>
    if hasDefaultStyle (.object fields) then .silent (.object fields)
    else ⟨noTypography, [.typographyWithoutStyle]⟩
  | _ => ⟨noTypography, [.typographyNoObject]⟩

/-- The overrides of the typography plugin. -/
def typography (raw : Text) : Attempt Value :=
  (strict "theme.extend.typography" (typographySource raw)).andThen fun value =>
    .whole (typographyOf value)

/-! ### Themes -/

/-- Reads one field of what extends a theme. -/
def extendField (key source : Text) : Attempt (Option Value) :=
  if key = "typography" then (typography source).map some
  else .silent ((valueOrSource source).map some)

/-- What extends a theme. -/
def extend (raw : Text) : Attempt Value :=
  if Text.beginsWith "\x7b" raw then (entries "theme.extend" raw extendField).map .object
  else ⟨.ok (.expr raw), [.extendNoObject (preview raw)]⟩

/-- Reads one field of a theme. -/
def themeField (key source : Text) : Attempt (Option Value) :=
  if key = "screens" then screens source
  else if key = "extend" then (extend source).map some
  else .silent ((valueOrSource source).map some)

/-- The theme of a configuration. -/
def theme (raw : Text) : Attempt Value :=
  if Text.beginsWith "\x7b" raw then (entries "theme" raw themeField).map .object
  else ⟨.ok (.expr raw), [.themeNoObject (preview raw)]⟩

end TailwindUpgrade.Config
