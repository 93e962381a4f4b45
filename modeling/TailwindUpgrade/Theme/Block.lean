/-
TailwindUpgrade/Theme/Block.lean

What a theme becomes: media queries for its screens, and a block that declares its colours.

A palette is an object whose fields are colours or, to any depth, objects of shades. The palette
that extends a theme is merged into that of the theme: where both have shades under a name, these
are merged in turn, and otherwise the extending palette wins.

The merged palette is flattened to one variable for each colour, named by the names on the way to it
with dashes between them; a default shade has the name of the colour it belongs to. What is no
colour gives a notice instead.
-/
import TailwindUpgrade.Literal.Display
import TailwindUpgrade.Reported
import TailwindUpgrade.Text.Line
import TailwindUpgrade.Theme.ColorReference

namespace TailwindUpgrade.Theme

/-! ### Screens -/

/-- The media query of a screen. -/
def mediaQuery (name : Text) (width : Value) : Text :=
  "@custom-media --" ++ name ++ " (min-width: " ++ width.display ++ ");"

/-- The media queries of a theme, in the order of its screens. -/
def mediaQueries (theme : Value) : List Text :=
  match theme.field? "screens" with
  | some (.object screens) => screens.map fun (name, width) => mediaQuery name width
  | _ => []

/-! ### Notices -/

/-- A colour of a theme that could not be declared. -/
inductive Notice where
  | colorSpread (name : Text)
  | noLiteral (name : Text)
  | expression (source : Text)
  deriving DecidableEq

/-- The wording of a notice. -/
def Notice.message : Notice → Text
  | colorSpread name =>
    "Color spread '" ++ name ++ "' cannot be resolved statically and was skipped"
  | noLiteral name => "Color '" ++ name ++ "' is not a literal value and was skipped"
  | expression source =>
    "Theme colors are defined by an expression (" ++ source ++ ") and were not converted"

/-! ### Merging -/

mutual

/-- What merging a value under a name gives, where `current` is what stands there. -/
def mergeValue (current : Option Value) : Value → Value
  | .object shades =>
    match current with
    | some (.object fields) => .object (mergeColors fields shades)
    | _ => .object shades
  | value => value

/-- Merges a palette into another, shades by shades. -/
def mergeColors (target : Record Value) : List (Text × Value) → Record Value
  | [] => target
  | (name, value) :: rest =>
    mergeColors (Record.set name (mergeValue (Record.get? name target) value) target) rest

end

/-! ### Flattening -/

/-- What flattening a palette meets: a colour with its name, a spread, or a value that is no
colour. -/
inductive Shade where
  | color (name text : Text)
  | spread (name : Text)
  | noLiteral (name : Text)
  deriving DecidableEq

namespace Shade

/-- The declaration of a colour. -/
def declaration? : Shade → Option Text
  | color name text => some ("  --color-" ++ name ++ ": " ++ text ++ ";")
  | spread _ | noLiteral _ => none

/-- The notice about what is no colour. -/
def notice? : Shade → Option Notice
  | color .. => none
  | spread name => some (.colorSpread name)
  | noLiteral name => some (.noLiteral name)

end Shade

/-- The name of a shade below the names on the way to it. -/
def shadeName (path name : Text) : Text :=
  if path = [] then name else if name = "DEFAULT" then path else path ++ "-" ++ name

mutual

/-- Flattens what stands under a name. -/
def shadesOf (name : Text) : Value → List Shade
  | .object fields => shades name fields
  | .str text => [.color name (colorText text)]
  | .int n => [.color name (colorText (Value.int n).display)]
  | .float x => [.color name (colorText (Value.float x).display)]
  | .null | .bool _ | .expr _ | .array _ => [.noLiteral name]

/-- Flattens a palette below the names `path`. -/
def shades (path : Text) : List (Text × Value) → List Shade
  | [] => []
  | (name, value) :: rest =>
    (if Text.beginsWith "..." name then [.spread name] else shadesOf (shadeName path name) value) ++
      shades path rest

end

/-! ### Themes -/

/-- The palettes of a theme: its own, and the one that extends it. -/
def palettes (theme : Value) : List Value :=
  (theme.field? "colors").toList ++ ((theme.field? "extend").bind (Value.field? "colors")).toList

/-- Merges one palette of a theme into the colours so far; null stands for no palette. -/
def addPalette (colors : Record Value) : Value → Reported Notice (Record Value)
  | .object fields => .silent (mergeColors colors fields)
  | .null => .silent colors
  | other => ⟨colors, [.expression other.display]⟩

/-- Merges palettes into the colours so far, one after another. -/
def addPalettes (colors : Record Value) : List Value → Reported Notice (Record Value)
  | [] => .silent colors
  | palette :: rest => (addPalette colors palette).andThen fun merged => addPalettes merged rest

/-- The block that declares the colours of a theme, or nothing if there are none. -/
def colorBlock (theme : Value) : Reported Notice (List Text) :=
  (addPalettes [] (palettes theme)).andThen fun colors =>
    let found := shades [] colors
    let declarations := found.filterMap Shade.declaration?
    ⟨if declarations.isEmpty then [] else Text.block [] "@theme" declarations,
      found.filterMap Shade.notice?⟩

end TailwindUpgrade.Theme
