/-
TailwindUpgrade/Project/Path.lean

Paths and locations. A path is what is given in words: components after perhaps a slash at the
beginning, where empty components and single dots say nothing. A location is a place in the tree of
files: the names on the way from its root. A path leads from a location to another one, two dots
leading one step up.
-/

namespace TailwindUpgrade.Project

/-- A place in the tree of files, as the names on the way to it. -/
abbrev Location := List String

/-- Cuts a text at every occurrence of a character. -/
def cutAt (sep : Char) : List Char → List (List Char)
  | [] => [[]]
  | c :: rest =>
    if c = sep then [] :: cutAt sep rest
    else
      match cutAt sep rest with
      | first :: others => (c :: first) :: others
      | [] => [[c]]

/-- A path: the slashes it begins with, and its components. -/
structure Path where
  anchor : String
  parts : List String
  deriving DecidableEq

namespace Path

/-- The slashes at the beginning of a path that count: two are kept, more are one. -/
def anchorOf (text : List Char) : String :=
  match (text.takeWhile (· == '/')).length with
  | 0 => ""
  | 2 => "//"
  | _ => "/"

/-- The path that a text gives. -/
def ofText (text : String) : Path :=
  let parts := (cutAt '/' text.toList).map String.ofList
  ⟨anchorOf text.toList, parts.filter fun part => part ≠ "" ∧ part ≠ "."⟩

/-- A path in words. -/
def text (path : Path) : String :=
  if path.anchor = "" ∧ path.parts = [] then "."
  else path.anchor ++ String.intercalate "/" path.parts

/-- The path to the folder that the last component of a path is in. -/
def parent (path : Path) : Path := ⟨path.anchor, path.parts.dropLast⟩

/-- Whether a path holds a null character, which no name can. -/
def hasNull (path : Path) : Bool := path.parts.any fun part => part.toList.contains '\x00'

/-- Whether a path leads from the root of the tree. -/
def isAbsolute (path : Path) : Bool := path.anchor ≠ ""

end Path

namespace Location

/-- The location that one component of a path leads to. -/
def step (location : Location) (part : String) : Location :=
  if part = ".." then location.dropLast else location ++ [part]

/-- Where a path starts. -/
def start (current : Location) (path : Path) : Location := if path.isAbsolute then [] else current

/-- The location that a path leads to, whether or not there is anything on the way. -/
def resolve (current : Location) (path : Path) : Location :=
  path.parts.foldl step (start current path)

/-- The path that leads to a location from the root of the tree. -/
def path (location : Location) : Path := ⟨"/", location⟩

/-- A location in words. -/
def text (location : Location) : String := location.path.text

end Location

end TailwindUpgrade.Project
