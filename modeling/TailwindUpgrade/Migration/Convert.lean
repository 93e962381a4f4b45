/-
TailwindUpgrade/Migration/Convert.lean

The whole migration, from the source of a configuration and the text of a stylesheet to the new
stylesheet. It fails, with nothing to say beside that, exactly if the source holds no configuration;
and it is broken off, with no report at all, if the reading of the configuration is.
-/
import TailwindUpgrade.Migration.Merge

namespace TailwindUpgrade.Migration

/-- What is reported about a migration: its stylesheet, and its warnings and errors in words. -/
structure Report where
  css : Text
  warnings : List Text
  errors : List Text
  deriving DecidableEq

namespace Report

/-- Whether a migration succeeded. -/
def ok (r : Report) : Bool := r.errors.isEmpty

/-- A report as a value. -/
def toValue (r : Report) : Value :=
  .object [("css", .str r.css), ("warnings", .array (r.warnings.map .str)),
    ("errors", .array (r.errors.map .str))]

end Report

/-- The report on an outcome, whose warnings come after those that were there before. -/
def Outcome.report (outcome : Outcome) (before : List Text) : Report :=
  ⟨outcome.css, before ++ outcome.notices.map Notice.message,
    outcome.failure.toList.map Failure.message⟩

/-- A migration that was broken off while its configuration was read: by which fault, and what there
was to say until then. -/
structure Interruption where
  fault : Literal.Fault
  notices : List Notice
  deriving DecidableEq

/-- Migrates a stylesheet by a configuration that was read, after the notices about that. -/
def migrate (lib : Css.Library) (fields : Record Value) (notices : List Config.Notice)
    (css : Text) : Outcome :=
  let merged := merge lib (.object fields) (Sheet.Sections.ofText css)
  ⟨merged.css, notices.map .config ++ merged.notices, merged.failure⟩

/-- Migrates a stylesheet by the source of a configuration. -/
def convert (lib : Css.Library) (config css : Text) : Except Interruption Outcome :=
  match Config.read config with
  | .error failure => .ok ⟨"", [], some (.config failure)⟩
  | .ok ⟨.error fault, notices⟩ => .error ⟨fault, notices.map .config⟩
  | .ok ⟨.ok fields, notices⟩ => .ok (migrate lib fields notices css)

/-- Migrates a stylesheet again and again, each time the one that came out last; the outcomes of all
runs, in order. -/
def convertTimes (lib : Css.Library) (config : Text) :
    Nat → Text → Except Interruption (List Outcome)
  | 0, _ => .ok []
  | times + 1, css => do
    let outcome ← convert lib config css
    let outcomes ← convertTimes lib config times outcome.css
    return outcome :: outcomes

end TailwindUpgrade.Migration
