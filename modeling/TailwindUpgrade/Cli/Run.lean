/-
TailwindUpgrade/Cli/Run.lean

Running the command: finding the two files, migrating, and writing what came out. What a run does is
a function of its arguments and of the tree of files; it gives an exit status or a reason why it was
broken off, the lines that were logged, what was printed, and the tree of files afterwards.

The status is 0 for a stylesheet, 1 for a migration that failed, and 2 if there was nothing to
migrate. No run changes another file than the one that it is told to write.
-/
import TailwindUpgrade.Cli.Options
import TailwindUpgrade.Migration.Convert
import TailwindUpgrade.Project.Lookup

namespace TailwindUpgrade.Cli

/-- A line that is logged. -/
structure LogLine where
  level : Level
  channel : Text
  message : Text
  deriving DecidableEq

/-- A line of the log in words. -/
def LogLine.text (line : LogLine) : Text :=
  "[" ++ line.level.name ++ "] " ++ line.channel ++ ": " ++ line.message ++ "\n"

/-- How a run ends: with a status, with nothing done because of its arguments, or broken off because
an option that has to have a value has none, because of a file that cannot be used, or by a literal
in the configuration. -/
inductive Ending where
  | status (code : Nat)
  | usage (usage : Usage)
  | noValue
  | brokenOff (failure : Project.Failure)
  | interrupted (fault : Literal.Fault)
  deriving DecidableEq

/-- What a run leaves behind. -/
structure Result where
  ending : Ending
  log : List LogLine
  printed : Text
  disk : Project.Disk

namespace Result

/-- The log in words. -/
def logText (result : Result) : Text := result.log.flatMap LogLine.text

/-- A run that ends with nothing logged, printed or changed. -/
def bare (ending : Ending) (disk : Project.Disk) : Result := ⟨ending, [], [], disk⟩

end Result

/-- A line logged by the command itself. -/
def said (level : Level) (message : Text) : LogLine := ⟨level, "main", message⟩

/-- The line for a notice. -/
def noticeLine (notice : Migration.Notice) : LogLine :=
  ⟨.warning, notice.channel, notice.message⟩

/-- The lines about why a migration failed: one where that was found, one by the command. -/
def failureLines (failure : Migration.Failure) : List LogLine :=
  [⟨.error, "core.merger", failure.message⟩, said .error failure.message]

/-- The lines about a migration. -/
def migrationLines (outcome : Migration.Outcome) : List LogLine :=
  outcome.notices.map noticeLine ++ outcome.failure.toList.flatMap failureLines ++
    [said .info ("Conversion finished with " ++ natText outcome.notices.length ++ " warning(s)")]

/-- A file to be read: one that is given by its path, or one that was found. -/
inductive Source where
  | given (path : Project.Path)
  | found (location : Project.Location)
  deriving DecidableEq

namespace Source

/-- The name of a file in messages. -/
def text : Source → Text
  | given path => path.text
  | found location => location.text

/-- Reads a file. -/
def read (disk : Project.Disk) : Source → Except Project.Failure Text
  | given path => disk.read path
  | found location => disk.readAt location

end Source

/-- Why there is nothing to migrate. -/
inductive InputFailure where
  | noConfig (root : Project.Location)
  | noStylesheet (root : Project.Location)
  | noRoot
  | unusableRoot (failure : Project.Failure)
  | unreadable (failure : Project.Failure)
  deriving DecidableEq

/-- What a migration starts from. -/
structure Input where
  configSource : Source
  cssSource : Source
  config : Text
  css : Text
  deriving DecidableEq

/-- The folder in which files are looked for. -/
def rootFolder (disk : Project.Disk) (options : Options) : Except InputFailure Project.Location :=
  match options.root with
  | none => .error .noRoot
  | some root => (disk.resolve (.ofText root)).mapError .unusableRoot

/-- The configuration: the file that is given, or else the one in the root folder. -/
def configSource (disk : Project.Disk) (options : Options) : Except InputFailure Source :=
  match options.config with
  | some path => .ok (.given (.ofText path))
  | none => do
    let root ← rootFolder disk options
    match ← (Project.findConfig disk root).mapError .unusableRoot with
    | some location => .ok (.found location)
    | none => .error (.noConfig root)

/-- The stylesheet: the file that is given, or else the one below the root folder that loads
Tailwind. -/
def cssSource (disk : Project.Disk) (options : Options) : Except InputFailure Source :=
  match options.css with
  | some path => .ok (.given (.ofText path))
  | none => do
    let root ← rootFolder disk options
    match ← (Project.findEntry disk root).mapError .unreadable with
    | some location => .ok (.found location)
    | none => .error (.noStylesheet root)

/-- Finds and reads what a migration starts from. Both files are found before one is read. -/
def input (disk : Project.Disk) (options : Options) : Except InputFailure Input := do
  let configSource ← configSource disk options
  let cssSource ← cssSource disk options
  let config ← (configSource.read disk).mapError .unreadable
  let css ← (cssSource.read disk).mapError .unreadable
  return ⟨configSource, cssSource, config, css⟩

/-- The end of a run that has nothing to migrate, with the line that says why. -/
def refused (disk : Project.Disk) (message : Text) : Result :=
  ⟨.status 2, [said .error message], [], disk⟩

/-- The end of a run that has nothing to migrate. -/
def withoutInput (disk : Project.Disk) : InputFailure → Result
  | .noConfig root => refused disk ("No Tailwind config file found in " ++ root.text)
  | .noStylesheet root =>
    refused disk ("No stylesheet with Tailwind directives found in " ++ root.text)
  | .unreadable (.obstacle obstacle path) =>
    refused disk ("Could not read input: " ++ obstacle.report path)
  | .unreadable failure | .unusableRoot failure => .bare (.brokenOff failure) disk
  | .noRoot => .bare .noValue disk

/-- The end of a run whose stylesheet is to be written to a file. One that has no form in UTF-8
leaves the file empty. -/
def written (disk : Project.Disk) (log : List LogLine) (output : String) (css : Text) : Result :=
  let encoded := css.toUTF8?
  match disk.write (.ofText output) (encoded.getD .empty) with
  | .error failure => ⟨.brokenOff failure, log, [], disk⟩
  | .ok disk =>
    if encoded.isNone then ⟨.brokenOff .noUTF8, log, [], disk⟩
    else ⟨.status 0, log ++ [said .info ("Wrote " ++ output)], [], disk⟩

/-- The end of a run that has migrated. -/
def delivered (disk : Project.Disk) (options : Options) (log : List LogLine)
    (outcome : Migration.Outcome) : Result :=
  let code := if outcome.failure.isSome then 1 else 0
  if options.json then ⟨.status code, log, (outcome.report []).toValue.json 0 ++ "\n", disk⟩
  else if outcome.failure.isSome then ⟨.status code, log, [], disk⟩
  else
    match options.output with
    | some output => written disk log output outcome.css
    | none => ⟨.status code, log, outcome.css, disk⟩

/-- The end of a run whose migration was broken off. -/
def interrupted (disk : Project.Disk) (log : List LogLine)
    (interruption : Migration.Interruption) : Result :=
  ⟨.interrupted interruption.fault, log ++ interruption.notices.map noticeLine, [], disk⟩

/-- Runs the command with the given options. -/
def runWith (lib : Css.Library) (disk : Project.Disk) (options : Options) : Result :=
  match input disk options with
  | .error failure => withoutInput disk failure
  | .ok input =>
    let beginning := said .info
      ("Converting " ++ input.configSource.text ++ " and " ++ input.cssSource.text)
    match Migration.convert lib input.config input.css with
    | .ok outcome => delivered disk options (beginning :: migrationLines outcome) outcome
    | .error interruption => interrupted disk [beginning] interruption

/-- Runs the command. The log holds the lines at the level that is asked for and above. -/
def run (lib : Css.Library) (disk : Project.Disk) (arguments : List String) : Result :=
  match Options.parse arguments with
  | .error usage => .bare (.usage usage) disk
  | .ok options =>
    match options.logLevel with
    | none => .bare .noValue disk
    | some level =>
      let result := runWith lib disk options
      { result with log := result.log.filter fun line => level.rank ≤ line.level.rank }

end TailwindUpgrade.Cli
