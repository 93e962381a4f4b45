/-
TailwindUpgrade/Migration/Notice.lean

The notices of all areas in one type, and the ways in which a migration fails. Each notice belongs
to the channel of its area, under which it is logged.
-/
import TailwindUpgrade.Config.Read
import TailwindUpgrade.Plugin.Setting
import TailwindUpgrade.Sheet.Layer
import TailwindUpgrade.Theme.Block

namespace TailwindUpgrade.Migration

/-- A notice of one of the areas. -/
inductive Notice where
  | config (notice : Config.Notice)
  | sheet (notice : Sheet.Notice)
  | theme (notice : Theme.Notice)
  | plugin (notice : Plugin.Notice)
  deriving DecidableEq

namespace Notice

/-- The wording of a notice. -/
def message : Notice → Text
  | config notice => notice.message
  | sheet notice => notice.message
  | theme notice => notice.message
  | plugin notice => notice.message

/-- The channel under which a notice is logged. -/
def channel : Notice → Text
  | config _ => "tailwind.config_reader"
  | sheet _ => "core.css_sectionizer"
  | theme _ => "core.theme_converter"
  | plugin _ => "core.plugin_converter"

end Notice

/-- Why a migration gives no stylesheet: there is no configuration to be found, or what there is in
its place is no object, but a value of the named kind. -/
inductive Failure where
  | config (failure : Config.Failure)
  | noObject (kind : Text)
  deriving DecidableEq

/-- The wording of a failure. -/
def Failure.message : Failure → Text
  | config failure => failure.report
  | noObject kind => "Conversion error: '" ++ kind ++ "' object has no attribute 'get'"

end TailwindUpgrade.Migration
