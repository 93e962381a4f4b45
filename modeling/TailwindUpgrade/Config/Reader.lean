/-
TailwindUpgrade/Config/Reader.lean

A reader that is asked again and again, for whole configurations or for parts of one. It keeps the
configuration and the warnings of the last source it was given, with the warnings about the parts it
was asked for since, and the bindings of the last source that held a configuration. What it answers
depends on nothing of that but the bindings, and these only matter for the modules of plugins.

A configuration is read in steps, each of which changes what is kept: what was kept of the last one
is dropped, the object is looked for, its bindings are taken over, and the fields are read and kept
one by one. If a field is broken off, those before it stay.
-/
import TailwindUpgrade.Config.Read

namespace TailwindUpgrade.Config

/-- A part of a configuration that can be read by itself. -/
inductive Part where
  | theme
  | screens
  | extend
  | typography
  | daisy
  | plugins
  | plugin
  deriving DecidableEq

/-- Reads a part from its source; null stands for one that has to be left out. -/
def Part.read (bound : Record Text) (source : Text) : Part → Attempt Value
  | theme => Config.theme source
  | screens => (Config.screens source).map (·.getD .null)
  | extend => Config.extend source
  | typography => Config.typography source
  | daisy => Config.daisy source
  | plugins => .whole ((Config.plugins bound source).map (·.getD .null))
  | plugin => .silent (.ok (describe bound source))

/-- What a reader is asked for: a configuration, the bindings of a source, or a part of a
configuration. -/
inductive Request where
  | config (source : Text)
  | bindings (source : Text)
  | part (part : Part) (source : Text)
  deriving DecidableEq

/-- Why a request has no answer: there is no configuration in the source, or a literal in it broke
the reading off. -/
inductive Refusal where
  | noConfig (failure : Failure)
  | brokenOff (fault : Literal.Fault)
  deriving DecidableEq

/-- What a reader keeps. -/
structure Reader where
  config : Record Value
  warnings : List Text
  bindings : Record Text
  deriving DecidableEq

namespace Reader

/-- A reader that was asked for nothing yet. -/
def fresh : Reader := ⟨[], [], []⟩

/-- Takes a result over, with its warnings behind those there are. -/
def receive {α : Type} (reader : Reader) (found : Reported Notice α) : α × Reader :=
  (found.value, { reader with warnings := reader.warnings ++ found.notices.map Notice.message })

/-- Reads a field of a configuration and keeps it, unless it has to be left out; the fault is the
one that broke it off, if one did. -/
def readField (reader : Reader) (entry : Text × Text) : Option Literal.Fault × Reader :=
  match reader.receive (field reader.bindings entry.1 entry.2) with
  | (.ok (some value), next) =>
    (none, { next with config := Record.set entry.1 value next.config })
  | (.ok none, next) => (none, next)
  | (.error fault, next) => (some fault, next)

/-- Reads the fields of a configuration one after another, until one is broken off. -/
def readFields (reader : Reader) : List (Text × Text) → Option Literal.Fault × Reader
  | [] => (none, reader)
  | entry :: rest =>
    match reader.readField entry with
    | (none, next) => next.readFields rest
    | (some fault, next) => (some fault, next)

/-- Reads a configuration. A source that holds none leaves the bindings as they were. -/
def readConfig (reader : Reader) (source : Text) : Except Refusal (Record Value) × Reader :=
  let cleared : Reader := { reader with config := [], warnings := [] }
  match objectSource? source with
  | none => (.error (.noConfig .noConfigObject), cleared)
  | some object =>
    let bound : Reader := { cleared with bindings := Config.bindings source }
    let (list, opened) := bound.receive (properties "the config object" object)
    match opened.readFields list with
    | (none, last) => (.ok last.config, last)
    | (some fault, last) => (.error (.brokenOff fault), last)

/-- Reads a part of a configuration, of which only the warnings are kept. -/
def readPart (reader : Reader) (part : Part) (source : Text) : Except Refusal Value × Reader :=
  let (found, next) := reader.receive (part.read reader.bindings source)
  (found.mapError .brokenOff, next)

/-- Names with the modules they are bound to, as a value. -/
def bindingsValue (bound : Record Text) : Value :=
  .object (bound.map fun (name, module) => (name, .str module))

/-- Answers a request, and gives the reader afterwards. -/
def answer (reader : Reader) : Request → Except Refusal Value × Reader
  | .config source =>
    let (config, next) := reader.readConfig source
    (config.map .object, next)
  | .bindings source => (.ok (bindingsValue (Config.bindings source)), reader)
  | .part part source => reader.readPart part source

end Reader

end TailwindUpgrade.Config
