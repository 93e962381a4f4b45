/-
TailwindUpgrade/Main.lean

The command itself: it takes the folder it is called in, reads the files that a run may look at,
runs the command on them, and carries out what the run says. Files that cannot be read are left out,
as if they were not there.
-/
import TailwindUpgrade.Cli.Run
import TailwindUpgrade.Css.Rule

namespace TailwindUpgrade

/-- Whether the contents of a file may matter to a run, by its name. -/
def mayMatter (name : String) : Bool :=
  Project.isStylesheetName name || Project.configNames.contains name

/-- The folders and files below a location, without those that are passed over in any case. -/
partial def treeBelow (location : Project.Location) :
    IO (List Project.Location × Project.Files) := do
  let folder ← IO.FS.realPath (location.text)
  if !(← folder.isDir) then return ([], [])
  let mut folders := [location]
  let mut files := []
  for entry in (← folder.readDir) do
    let here := location ++ [entry.fileName]
    if ← entry.path.isDir then
      if Project.isSkipped entry.fileName then folders := here :: folders
      else
        let (moreFolders, moreFiles) ← treeBelow here
        folders := moreFolders ++ folders
        files := moreFiles ++ files
    else if mayMatter entry.fileName then
      files := (here, ← IO.FS.readBinFile entry.path) :: files
  return (folders, files)

/-- The file or folder at a location, if there is one. -/
def treeAt (location : Project.Location) : IO (List Project.Location × Project.Files) := do
  try
    let contents ← IO.FS.readBinFile location.text
    return ([], [(location, contents)])
  catch _ =>
    try
      let folder ← IO.FS.realPath location.text
      if ← folder.isDir then return ([location], []) else return ([], [])
    catch _ => return ([], [])

/-- What a run with the given options may look at. -/
def diskFor (current : Project.Location) (options : Cli.Options) : IO Project.Disk := do
  let place (path : String) : Project.Location :=
    Project.Location.resolve current (Project.Path.ofText path)
  let (folders, files) ← treeBelow (place (options.root.getD ".")) <|> pure ([], [])
  let named ← (options.config.toList ++ options.css.toList ++ options.output.toList).mapM
    fun path => treeAt (place path)
  return .ofFiles current (current :: folders ++ named.flatMap (·.1))
    (files ++ named.flatMap (·.2))

/-- Writes files, and makes the folders they stand in. -/
def writeFiles (files : Project.Files) : IO Unit := do
  for (location, contents) in files do
    IO.FS.createDirAll (Project.Location.text location.dropLast)
    IO.FS.writeBinFile location.text contents

/-- Carries out what a run says: its log, what it prints, and the files it changes. -/
def carryOut (before : Project.Disk) (result : Cli.Result) : IO UInt32 := do
  (← IO.getStderr).putStr result.logText.toString
  (← IO.getStdout).putStr result.printed.toString
  writeFiles (result.disk.changesSince before)
  match result.ending with
  | .status code => return UInt32.ofNat code
  | .usage .help => return 0
  | .usage .wrong => return 2
  | .noValue => do
    IO.eprintln Cli.usageText
    return 1
  | .brokenOff failure => do
    IO.eprintln failure.message.toString
    return 1
  | .interrupted fault => do
    IO.eprintln fault.message.toString
    return 1

end TailwindUpgrade

open TailwindUpgrade

/-- Runs the command with its arguments. -/
def main (arguments : List String) : IO UInt32 := do
  match Cli.Options.parse arguments with
  | .error .help => do
    IO.println Cli.usageText
    return 0
  | .error .wrong => do
    IO.eprintln Cli.usageText
    return 2
  | .ok options =>
    let folder ← IO.currentDir
    let disk ← diskFor (Project.Path.ofText folder.toString).parts options
    carryOut disk (Cli.run Css.library disk arguments)
