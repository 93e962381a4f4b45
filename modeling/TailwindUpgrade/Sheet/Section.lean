/-
TailwindUpgrade/Sheet/Section.lean

The sections of a stylesheet. A line that begins with an import directive is an import wherever it
stands. A line that holds the directive of one of Tailwind's layers switches to the section of that
layer for the lines after it and belongs to none itself. Every other line belongs to the current
section, which at the beginning is that of custom rules.
-/
import TailwindUpgrade.Text.Blank
import TailwindUpgrade.Text.Line
import TailwindUpgrade.Text.Search

namespace TailwindUpgrade.Sheet

/-- A section of a stylesheet. -/
inductive Section where
  | imports
  | base
  | components
  | utilities
  | custom
  deriving DecidableEq

namespace Section

/-- The name of a section. -/
def name : Section → Text
  | imports => "imports"
  | base => "base"
  | components => "components"
  | utilities => "utilities"
  | custom => "custom"

/-- The directives that switch to a section. -/
def markers : Section → List Text
  | base => ["@tailwindcss/base", "@tailwind base"]
  | components => ["@tailwindcss/components", "@tailwind components"]
  | utilities => ["@tailwindcss/utilities", "@tailwind utilities"]
  | imports | custom => []

/-- The section that a line switches to: the first of the layers whose directive it holds. -/
def ofMarker? (line : Text) : Option Section :=
  [base, components, utilities].find? fun s => s.markers.any fun marker => Text.occursIn marker line

end Section

/-- Whether a line begins with an import directive, blanks aside. -/
def isImport (line : Text) : Bool :=
  Text.beginsWith "@import" (Text.stripStart line)

/-- Tags lines with their sections, from the current section on. -/
def tagFrom (current : Section) : List Text → List (Section × Text)
  | [] => []
  | line :: rest =>
    if isImport line then (.imports, line) :: tagFrom current rest
    else
      match Section.ofMarker? line with
      | some next => tagFrom next rest
      | none => (current, line) :: tagFrom current rest

/-- The lines of a stylesheet with their sections. -/
def tagLines (css : Text) : List (Section × Text) := tagFrom .custom (Text.lines css)

/-- A stylesheet cut into its sections. -/
structure Sections where
  imports : List Text
  base : List Text
  components : List Text
  utilities : List Text
  custom : List Text
  deriving DecidableEq

namespace Sections

/-- The lines of one section. -/
def get (s : Sections) : Section → List Text
  | .imports => s.imports
  | .base => s.base
  | .components => s.components
  | .utilities => s.utilities
  | .custom => s.custom

/-- The lines that are tagged with a section, in order. -/
def tagged (section' : Section) (lines : List (Section × Text)) : List Text :=
  (lines.filter fun line => line.1 = section').map (·.2)

/-- Gathers tagged lines by section. -/
def ofTagged (lines : List (Section × Text)) : Sections :=
  ⟨tagged .imports lines, tagged .base lines, tagged .components lines, tagged .utilities lines,
    tagged .custom lines⟩

/-- Cuts a stylesheet into its sections. -/
def ofText (css : Text) : Sections := ofTagged (tagLines css)

/-- The lines of one section as text. -/
def text (s : Sections) (section' : Section) : Text := Text.joinLines (s.get section')

end Sections

end TailwindUpgrade.Sheet
