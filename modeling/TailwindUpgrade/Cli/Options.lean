/-
TailwindUpgrade/Cli/Options.lean

The options of the command line. A long option may be cut short as long as only one begins that way,
and takes its value from the next argument or from after an equals sign; the short form of an option
takes it also from right behind the letter. Behind the letter for help, which has no value, other
letters may stand. Two dashes attached to an option are no value, so it is given without one. Of an
option that is given again the last value counts. There are no arguments but options and their
values.

An argument is told to be an option or not before it is known whether it stands for a value: one
that begins with a dash is a value only if it is a dash alone or a negative number, or holds a space
and is the beginning of no option.
-/
import TailwindUpgrade.Project.Path
import TailwindUpgrade.Text.Digit

namespace TailwindUpgrade.Cli

/-- How much is logged; each level includes those after it. -/
inductive Level where
  | debug
  | info
  | warning
  | error
  deriving DecidableEq

namespace Level

/-- All levels. -/
def all : List Level := [debug, info, warning, error]

/-- The name of a level. -/
def name : Level → String
  | debug => "DEBUG"
  | info => "INFO"
  | warning => "WARNING"
  | error => "ERROR"

/-- How severe a level is. -/
def rank : Level → Nat
  | debug => 0
  | info => 1
  | warning => 2
  | error => 3

end Level

/-- The options there are. -/
inductive Flag where
  | help
  | config
  | css
  | root
  | output
  | json
  | logLevel
  deriving DecidableEq

namespace Flag

/-- All options under their names. -/
def named : List (String × Flag) :=
  [("-h", help), ("--help", help), ("--config", config), ("--css", css), ("--root", root),
    ("-o", output), ("--output", output), ("--json", json), ("--log-level", logLevel)]

/-- Whether an option has a value. -/
def takesValue : Flag → Bool
  | help | json => false
  | config | css | root | output | logLevel => true

/-- The options whose names begin with a text. -/
def beginning (text : List Char) : List Flag :=
  (named.filter fun entry => text.isPrefixOf entry.1.toList).map (·.2)

end Flag

/-- What an argument is: an option, perhaps with a text attached to it; the letter for help with
more letters behind it; something that looks like an option but is none; the mark after which there
are no more options; or a value. -/
inductive Argument where
  | flag (flag : Flag) (attached : Option String)
  | helpLetter (more : List Char)
  | ambiguous
  | unknown
  | endOfOptions
  | value (text : String)
  deriving DecidableEq

/-- The option of a name with a text attached to it. -/
def attach (name : String) (flag : Flag) (attached : List Char) : Argument :=
  if name = "-h" then .helpLetter attached else .flag flag (some (String.ofList attached))

/-- A text before and after its first equals sign, if there is one. -/
def splitEquals (text : List Char) : List Char × Option (List Char) :=
  match text.dropWhile (· ≠ '=') with
  | _ :: after => (text.takeWhile (· ≠ '='), some after)
  | [] => (text, none)

/-- Whether a text is a negative number, with digits at its end. -/
def isNegativeNumber : Text → Bool
  | .char '-' :: rest =>
    let body := if rest.getLast? = some (.char '\n') then rest.dropLast else rest
    match body.dropWhile Text.isDigit with
    | [] => !body.isEmpty
    | .char '.' :: fraction => !fraction.isEmpty && fraction.all Text.isDigit
    | _ => false
  | _ => false

/-- The options that an argument may be cut short from, each with the text attached to it. -/
def candidates : List Char → List Argument
  | '-' :: '-' :: rest =>
    let (name, attached) := splitEquals ('-' :: '-' :: rest)
    (Flag.beginning name).map fun flag => .flag flag (attached.map String.ofList)
  | '-' :: letter :: rest =>
    let name := String.ofList ['-', letter]
    (Flag.named.lookup name).toList.map fun flag => attach name flag rest
  | _ => []

/-- What an argument is that is not the name of an option. -/
def classifyOther (text : String) : Argument :=
  match candidates text.toList with
  | [option] => option
  | _ :: _ :: _ => .ambiguous
  | [] => if isNegativeNumber text ∨ text.toList.contains ' ' then .value text else .unknown

/-- What an argument is. -/
def classify (text : String) : Argument :=
  let (before, attached) := splitEquals text.toList
  let name := String.ofList before
  if text.toList.head? ≠ some '-' ∨ text = "-" then .value text
  else if text = "--" then .endOfOptions
  else
    match Flag.named.lookup text, attached, Flag.named.lookup name with
    | some flag, _, _ => .flag flag none
    | none, some attached, some flag => attach name flag attached
    | _, _, _ => classifyOther text

/-- What all arguments are. After the end of options there are only values. -/
def classifyAll : List String → List Argument
  | [] => []
  | text :: rest =>
    match classify text with
    | .endOfOptions => .endOfOptions :: rest.map .value
    | argument => argument :: classifyAll rest

/-- The options that are set. A file that is not given is to be looked for, and what comes out is
printed if no file is given for it. The folder to look in and the level have a value unless they are
given without one. -/
structure Options where
  config : Option String
  css : Option String
  root : Option String
  output : Option String
  json : Bool
  logLevel : Option Level
  deriving DecidableEq

/-- Why there is nothing to be done: the arguments cannot be understood, or only help is wanted. -/
inductive Usage where
  | wrong
  | help
  deriving DecidableEq

/-- How the command is called. -/
def usageText : String :=
  "usage: tailwind-upgrade [-h] [--config CONFIG] [--css CSS] [--root ROOT] [-o OUTPUT]\n" ++
    "                        [--json] [--log-level \x7bDEBUG,INFO,WARNING,ERROR\x7d]"

namespace Options

/-- The options where none are given. -/
def default : Options := ⟨none, none, some ".", none, false, some .warning⟩

/-- A value, unless it is empty. -/
def nonempty (value : String) : Option String := if value = "" then none else some value

/-- The value that a text attached to an option gives it. -/
def attachedValue (text : String) : Option String := if text = "--" then none else some text

/-- Sets an option that should have a value; nothing stands for one that is missing. -/
def set (options : Options) (flag : Flag) (value : Option String) : Except Usage Options :=
  match flag, value with
  | .config, value => .ok { options with config := value.bind nonempty }
  | .css, value => .ok { options with css := value.bind nonempty }
  | .root, value => .ok { options with root := value }
  | .output, value => .ok { options with output := value.bind nonempty }
  | .logLevel, none => .ok { options with logLevel := none }
  | .logLevel, some name =>
    match Level.all.find? fun level => level.name = name with
    | some level => .ok { options with logLevel := some level }
    | none => .error .wrong
  | .json, _ | .help, _ => .error .wrong

/-- Whether the letters behind that for help are options, given whether a value comes after them:
that for help, any number of times, and then perhaps that for the output with its value. -/
def areLetters (valueFollows : Bool) : List Char → Bool
  | [] => false
  | ['h'] => true
  | 'h' :: rest => areLetters valueFollows rest
  | 'o' :: rest => valueFollows || !rest.isEmpty
  | _ => false

/-- Whether the next argument is a value. -/
def valueFollows : List Argument → Bool
  | .value _ :: _ => true
  | _ => false

/-- Sets options from arguments, one after another. Arguments that belong to no option are an error
only at the end. -/
def takeAll (options : Options) (extra : Bool) : List Argument → Except Usage Options
  | [] => if extra then .error .wrong else .ok options
  | .flag flag attached :: rest =>
    if flag.takesValue then
      match attached, rest with
      | some text, rest =>
        (options.set flag (attachedValue text)).bind fun set => set.takeAll extra rest
      | none, .value value :: rest =>
        (options.set flag (some value)).bind fun set => set.takeAll extra rest
      | none, _ => .error .wrong
    else if attached.isSome then .error .wrong
    else if flag = .help then .error .help
    else takeAll { options with json := true } extra rest
  | .helpLetter more :: rest =>
    .error (if areLetters (valueFollows rest) more then .help else .wrong)
  | .ambiguous :: _ => .error .wrong
  | .unknown :: rest | .endOfOptions :: rest | .value _ :: rest => options.takeAll true rest

/-- The options that arguments set. -/
def parse (arguments : List String) : Except Usage Options :=
  let classified := classifyAll arguments
  if .ambiguous ∈ classified then .error .wrong else default.takeAll false classified

end Options

end TailwindUpgrade.Cli
