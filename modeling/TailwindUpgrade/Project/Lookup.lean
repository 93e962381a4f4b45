/-
TailwindUpgrade/Project/Lookup.lean

Looking for what a migration starts from. The configuration is one of four files directly in a
folder, the first of them that is there. Stylesheets are looked for in the folders below as well,
but not in hidden ones and not among installed modules; they are known by their extension. Of
these, the one that loads Tailwind is the first that holds a directive of it, in the order of their
paths, which are compared component by component.
-/
import TailwindUpgrade.Project.Disk
import TailwindUpgrade.Text.Search

namespace TailwindUpgrade.Project

/-- The names of the file that holds the configuration, the preferred one first. -/
def configNames : List String :=
  ["tailwind.config.ts", "tailwind.config.js", "tailwind.config.mjs", "tailwind.config.cjs"]

/-- What a stylesheet that loads Tailwind holds, one of them at least. -/
def directives : List Text := ["@tailwind ", "@tailwindcss/", "'tailwindcss/", "\"tailwindcss/"]

/-- The first of some names that a file in a folder has. -/
def findNamed (disk : Disk) (folder : Location) : List String → Except Failure (Option Location)
  | [] => .ok none
  | name :: rest =>
    match disk.hasAt disk.isFile (folder ++ [name]) with
    | .error failure => .error failure
    | .ok true => .ok (some (folder ++ [name]))
    | .ok false => findNamed disk folder rest

/-- The file in a folder that holds the configuration. -/
def findConfig (disk : Disk) (folder : Location) : Except Failure (Option Location) :=
  findNamed disk folder configNames

/-- Whether a name is passed over: that of a hidden file or folder, or of the installed modules. -/
def isSkipped (name : String) : Bool := name.toList.head? = some '.' || name = "node_modules"

/-- The extension of a file name: the text from its last dot, unless that is its first or last
character. -/
def extension (name : List Char) : List Char :=
  let after := (name.reverse.takeWhile (· ≠ '.')).reverse
  if after ≠ [] ∧ after.length + 1 < name.length then '.' :: after else []

/-- The extensions of stylesheets. -/
def stylesheetExtensions : List (List Char) :=
  [".css".toList, ".pcss".toList, ".postcss".toList]

/-- Whether a file is a stylesheet by its name, in any case. -/
def isStylesheetName (name : String) : Bool :=
  (extension name.toList).map Char.toLower ∈ stylesheetExtensions

/-- Whether the path of a file below a folder makes it a stylesheet to be looked at. -/
def isStylesheet (below : Location) : Bool :=
  !below.any isSkipped && below.getLast?.any isStylesheetName

/-- The order of paths: by their first different components, and a path before those it begins. -/
def precedes : Location → Location → Bool
  | [], _ => true
  | _ :: _, [] => false
  | a :: p, b :: q => if a = b then precedes p q else a < b

/-- The path of a location below a folder. -/
def below? : Location → Location → Option Location
  | [], location => some location
  | name :: folder, other :: location =>
    if name = other then below? folder location else none
  | _ :: _, [] => none

/-- The stylesheets below a folder, as their paths from there, in order. -/
def stylesheetsBelow (disk : Disk) (folder : Location) : List Location :=
  ((disk.files.filterMap fun file => below? folder file.1).filter isStylesheet).mergeSort precedes

/-- The stylesheets below a folder, in order. -/
def findStylesheets (disk : Disk) (folder : Location) : Except Failure (List Location) :=
  match disk.hasAt disk.isFolder folder with
  | .error failure => .error failure
  | .ok there =>
    .ok (if there then (stylesheetsBelow disk folder).map (folder ++ ·) else [])

/-- Whether a stylesheet loads Tailwind. -/
def holdsDirective (css : Text) : Bool :=
  directives.any fun directive => Text.occursIn directive css

/-- The first of some stylesheets that loads Tailwind. All before it have to be texts. -/
def firstEntry (disk : Disk) : List Location → Except Failure (Option Location)
  | [] => .ok none
  | location :: rest =>
    match disk.readAt location with
    | .error failure => .error failure
    | .ok css => if holdsDirective css then .ok (some location) else firstEntry disk rest

/-- The stylesheet below a folder that loads Tailwind. -/
def findEntry (disk : Disk) (folder : Location) : Except Failure (Option Location) :=
  match findStylesheets disk folder with
  | .error failure => .error failure
  | .ok stylesheets => firstEntry disk stylesheets

end TailwindUpgrade.Project
