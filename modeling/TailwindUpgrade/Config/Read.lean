/-
TailwindUpgrade/Config/Read.lean

Reading a configuration from its source. The one thing that is needed is the object itself; every
field of it is read by itself, so that a malformed one costs no other. Only a numeral of too many
digits costs them all: the reading is broken off there.
-/
import TailwindUpgrade.Config.Anchor
import TailwindUpgrade.Config.Plugin
import TailwindUpgrade.Config.Theme

namespace TailwindUpgrade.Config

/-- Why no configuration could be read. -/
inductive Failure where
  | noConfigObject
  deriving DecidableEq

/-- The wording of a failure. -/
def Failure.message : Failure → Text
  | noConfigObject => "Could not find Tailwind config object"

/-- The wording of a failure in the report on a conversion. -/
def Failure.report (failure : Failure) : Text :=
  "Failed to parse Tailwind config: " ++ failure.message

/-- Reads one field of a configuration, given the names that the source binds. -/
def field (bound : Record Text) (key source : Text) : Attempt (Option Value) :=
  if key = "theme" then (theme source).map some
  else if key = "plugins" then .whole (plugins bound source)
  else if key = "daisyui" then (daisy source).map some
  else .silent ((valueOrSource source).map some)

/-- Reads the fields of the object that holds a configuration. -/
def fields (bound : Record Text) (object : Text) : Attempt (Record Value) :=
  entries "the config object" object (field bound)

/-- Reads a configuration from its source. -/
def read (source : Text) : Except Failure (Attempt (Record Value)) :=
  match objectSource? source with
  | none => .error .noConfigObject
  | some object => .ok (fields (bindings source) object)

end TailwindUpgrade.Config
