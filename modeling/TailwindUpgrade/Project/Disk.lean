/-
TailwindUpgrade/Project/Disk.lean

The tree of files that a migration works on: the contents of its files, folders that are there
whether or not anything is in them, and the folder from which relative paths lead. Whatever lies on
the way to a file or folder is a folder as well. No two files have the same location, and the order
in which they are kept has no meaning.

Following a path takes it component by component, and each one but the last has to be a folder that
is there. No name may be longer than `maxNameBytes`, and no path longer than `maxPathBytes`. Text is
read as UTF-8 with line feeds at the ends of lines. Writing a file makes the folders that are
missing on the way to it and changes no other file (`contents?_put_of_ne`).

Left out are links, permissions, and texts in other encodings: whatever is there can be read and
written, and a file that holds no UTF-8 is no text.
-/
import TailwindUpgrade.Project.Path
import TailwindUpgrade.Text.Line
import TailwindUpgrade.Text.Quoted

namespace TailwindUpgrade.Project

/-- Why a path cannot be used. -/
inductive Obstacle where
  | notFound
  | fileThere
  | noFolder
  | isFolder
  | nameTooLong
  deriving DecidableEq

namespace Obstacle

/-- The wording of an obstacle, with its number. -/
def message : Obstacle → String
  | notFound => "[Errno 2] No such file or directory"
  | fileThere => "[Errno 17] File exists"
  | noFolder => "[Errno 20] Not a directory"
  | isFolder => "[Errno 21] Is a directory"
  | nameTooLong => "[Errno 36] File name too long"

/-- The wording of an obstacle that a path is refused for. -/
def report (obstacle : Obstacle) (path : String) : Text :=
  obstacle.message ++ ": " ++ Text.quoted path

end Obstacle

/-- Why a file could not be read or written: its path cannot be used, or is none since it holds a
null character; what is read is no text, or what is to be written has no form in UTF-8. -/
inductive Failure where
  | obstacle (obstacle : Obstacle) (path : String)
  | noPath
  | noText
  | noUTF8
  deriving DecidableEq

/-- The wording of a failure. -/
def Failure.message : Failure → Text
  | .obstacle met path => met.report path
  | .noPath => "a path holds a null character"
  | .noText => "a file that was to be read is no UTF-8 text"
  | .noUTF8 => "a text that was to be written has no form in UTF-8"

/-! ### Files -/

/-- The contents of files at their locations. -/
abbrev Files := List (Location × ByteArray)

namespace Files

/-- The contents of the file at a location. -/
def contents? (location : Location) (files : Files) : Option ByteArray := files.lookup location

/-- Puts a file at a location, in place of one that is there. -/
def put (location : Location) (contents : ByteArray) : Files → Files
  | [] => [(location, contents)]
  | (other, c) :: rest =>
    if other = location then (location, contents) :: rest
    else (other, c) :: put location contents rest

/-- Puts several files, one after another. -/
def putAll (files added : Files) : Files := added.foldl (fun files f => put f.1 f.2 files) files

@[simp] theorem contents?_put_self (location : Location) (contents : ByteArray) (files : Files) :
    contents? location (put location contents files) = some contents := by
  induction files with
  | nil => simp [put, contents?]
  | cons file rest ih =>
    obtain ⟨other, c⟩ := file
    by_cases h : other = location
    · simp [put, contents?, h]
    · have hne : (location == other) = false := by simpa using Ne.symm h
      simpa [put, contents?, h, List.lookup_cons, hne] using ih

theorem contents?_put_of_ne {location other : Location} (h : other ≠ location)
    (contents : ByteArray) (files : Files) :
    contents? other (put location contents files) = contents? other files := by
  have hother : (other == location) = false := by simpa using h
  induction files with
  | nil => simp [put, contents?, List.lookup_cons, hother]
  | cons file rest ih =>
    obtain ⟨here, c⟩ := file
    by_cases hhere : here = location
    · subst hhere
      simp [put, contents?, List.lookup_cons, hother]
    · simp only [contents?] at ih
      simp [put, contents?, hhere, List.lookup_cons, ih]

/-- Putting a file adds its location, unless that is there, and no other one. -/
theorem mem_locations_put {location other : Location} {contents : ByteArray} {files : Files} :
    other ∈ (put location contents files).map (·.1) ↔
      other = location ∨ other ∈ files.map (·.1) := by
  induction files with
  | nil => simp [put]
  | cons file rest ih =>
    obtain ⟨here, c⟩ := file
    by_cases hhere : here = location
    · simp [put, hhere]
    · have hput : put location contents ((here, c) :: rest) =
          (here, c) :: put location contents rest := by simp [put, hhere]
      rw [hput, List.map_cons, List.mem_cons, ih, List.map_cons, List.mem_cons]
      constructor
      · rintro (h | h | h)
        · exact .inr (.inl h)
        · exact .inl h
        · exact .inr (.inr h)
      · rintro (h | h | h)
        · exact .inr (.inl h)
        · exact .inl h
        · exact .inr (.inr h)

/-- Locations stay distinct when a file is put among others. -/
theorem nodup_put {files : Files} (h : (files.map (·.1)).Nodup) (location : Location)
    (contents : ByteArray) : ((put location contents files).map (·.1)).Nodup := by
  induction files with
  | nil => simp [put]
  | cons file rest ih =>
    obtain ⟨here, c⟩ := file
    rw [List.map_cons, List.nodup_cons] at h
    by_cases hhere : here = location
    · subst hhere
      simpa [put] using h
    · have hput : put location contents ((here, c) :: rest) =
          (here, c) :: put location contents rest := by simp [put, hhere]
      rw [hput, List.map_cons, List.nodup_cons]
      refine ⟨fun hmem => ?_, ih h.2⟩
      rcases mem_locations_put.1 hmem with heq | hrest
      · exact hhere heq
      · exact h.1 hrest

theorem nodup_nil : (([] : Files).map (·.1)).Nodup := List.nodup_nil

theorem nodup_putAll {files : Files} (h : (files.map (·.1)).Nodup) (added : Files) :
    ((putAll files added).map (·.1)).Nodup := by
  induction added generalizing files with
  | nil => exact h
  | cons file rest ih => exact ih (nodup_put h file.1 file.2)

end Files

/-! ### Trees of files -/

/-- A tree of files, and the folder from which relative paths lead. -/
structure Disk where
  current : Location
  folders : List Location
  files : Files
  distinct : (files.map (·.1)).Nodup

namespace Disk

/-- The tree with the given folders and files; of two files at one location the later one counts. -/
def ofFiles (current : Location) (folders : List Location) (files : Files) : Disk :=
  ⟨current, folders, Files.putAll [] files, Files.nodup_putAll Files.nodup_nil files⟩

/-- The contents of the file at a location. -/
def contents? (disk : Disk) (location : Location) : Option ByteArray :=
  Files.contents? location disk.files

/-- Whether there is a file at a location. -/
def isFile (disk : Disk) (location : Location) : Bool := (disk.contents? location).isSome

/-- Whether a location is a folder: it is kept as one, or something lies below it. The root of the
tree always is one. -/
def isFolder (disk : Disk) (location : Location) : Bool :=
  location.isEmpty || disk.folders.any (fun folder => location.isPrefixOf folder) ||
    disk.files.any fun file => location.isPrefixOf file.1 && location ≠ file.1

/-- The most bytes that a name may have in UTF-8. -/
def maxNameBytes : Nat := 255

/-- The most bytes that a path may have in UTF-8. -/
def maxPathBytes : Nat := 4095

/-- The obstacle that something other than a folder is to a path that leads on from it. -/
def obstacleAt (disk : Disk) (location : Location) : Obstacle :=
  if disk.isFile location then .noFolder else .notFound

/-- The location that the components of a path lead to from another one. A name that is too long is
noticed in the folder where it would have to be. -/
def follow (disk : Disk) (location : Location) : List String → Except Obstacle Location
  | [] => .ok location
  | part :: rest =>
    if disk.isFolder location then
      if maxNameBytes < part.utf8ByteSize then .error .nameTooLong
      else disk.follow (location.step part) rest
    else .error (disk.obstacleAt location)

/-- The location that a path leads to, where there need not be anything. -/
def reach (disk : Disk) (path : Path) : Except Failure Location :=
  if path.hasNull then .error .noPath
  else if maxPathBytes < path.text.utf8ByteSize then .error (.obstacle .nameTooLong path.text)
  else
    match disk.follow (.start disk.current path) path.parts with
    | .ok location => .ok location
    | .error obstacle => .error (.obstacle obstacle path.text)

/-- Whether there is something of a kind at a location. A name that is too long is a failure; any
other obstacle on the way only says that there is nothing. -/
def hasAt (disk : Disk) (kind : Location → Bool) (location : Location) : Except Failure Bool :=
  match disk.reach location.path with
  | .ok found => .ok (kind found)
  | .error (.obstacle .nameTooLong path) => .error (.obstacle .nameTooLong path)
  | .error _ => .ok false

/-- The location of the file that a path leads to. -/
def locate (disk : Disk) (path : Path) : Except Failure Location :=
  match disk.reach path with
  | .error failure => .error failure
  | .ok location =>
    if disk.isFolder location then .error (.obstacle .isFolder path.text)
    else if disk.isFile location then .ok location
    else .error (.obstacle .notFound path.text)

/-- The location that a path leads to, step by step and whether or not there is anything on the
way. -/
def resolve (disk : Disk) (path : Path) : Except Failure Location :=
  if path.hasNull then .error .noPath else .ok (.resolve disk.current path)

/-! ### Reading -/

/-- The text of contents, if they are a text. -/
def decode (contents : ByteArray) : Except Failure Text :=
  match String.fromUTF8? contents with
  | some text => .ok (Text.lineFeeds text)
  | none => .error .noText

/-- Reads the file at a location. -/
def readAt (disk : Disk) (location : Location) : Except Failure Text :=
  match disk.contents? location with
  | some contents => decode contents
  | none =>
    .error (.obstacle (if disk.isFolder location then .isFolder else .notFound) location.text)

/-- Reads the file that a path leads to. -/
def read (disk : Disk) (path : Path) : Except Failure Text :=
  match disk.locate path with
  | .error failure => .error failure
  | .ok location => disk.readAt location

/-! ### Writing -/

/-- Adds a folder. -/
def addFolder (disk : Disk) (location : Location) : Disk :=
  { disk with folders := disk.folders ++ [location] }

/-- Puts a file at a location, in place of one that is there. -/
def put (disk : Disk) (location : Location) (contents : ByteArray) : Disk :=
  ⟨disk.current, disk.folders, Files.put location contents disk.files,
    Files.nodup_put disk.distinct location contents⟩

/-- Makes the folder that a path leads to, inside one that has to be there. -/
def makeFolder (disk : Disk) (path : Path) : Except Failure Disk :=
  match disk.reach path with
  | .error failure => .error failure
  | .ok location =>
    if disk.isFolder location || disk.isFile location then
      .error (.obstacle .fileThere path.text)
    else .ok (disk.addFolder location)

/-- Makes the folder that a path leads to, inside one that has to be there, unless it is there. -/
def ensureFolder (disk : Disk) (path : Path) : Except Failure Disk :=
  match disk.makeFolder path, disk.reach path with
  | .ok made, _ => .ok made
  | .error failure, .ok location => if disk.isFolder location then .ok disk else .error failure
  | .error failure, .error _ => .error failure

/-- Makes the folder that a path leads to, unless it is there, and before that, where something is
missing on the way, the folder that it has to be in. -/
def ensureFolders (disk : Disk) (path : Path) : Except Failure Disk :=
  match disk.ensureFolder path with
  | .ok made => .ok made
  | .error failure =>
    if failure = .obstacle .notFound path.text ∧ path.parts ≠ [] then
      match disk.ensureFolders path.parent with
      | .ok made => made.ensureFolder path
      | .error failure => .error failure
    else .error failure
termination_by path.parts.length
decreasing_by
  simp only [Path.parent, List.length_dropLast]
  have : path.parts.length ≠ 0 := by simp_all
  omega

/-- Writes contents to the file that a path leads to. -/
def write (disk : Disk) (path : Path) (contents : ByteArray) : Except Failure Disk :=
  match disk.ensureFolders path.parent with
  | .error failure => .error failure
  | .ok made =>
    match made.reach path with
    | .error failure => .error failure
    | .ok location =>
      if made.isFolder location then .error (.obstacle .isFolder path.text)
      else .ok (made.put location contents)

/-- The files of a tree that are not there with the same contents in the tree `before`. -/
def changesSince (disk before : Disk) : Files :=
  disk.files.filter fun file => (before.contents? file.1).map ByteArray.data ≠ some file.2.data

end Disk

end TailwindUpgrade.Project
