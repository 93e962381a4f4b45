/-
TailwindUpgrade/Plugin/Block.lean

The blocks that load the plugins of a configuration, in the order in which it lists them. The
typography and daisyUI plugins are known by their names and get blocks with their settings, daisyUI
at most once; any other plugin is loaded by its module, if that is known. Settings for daisyUI load
it last if it is not listed.
-/
import TailwindUpgrade.Plugin.Daisy
import TailwindUpgrade.Plugin.Typography

namespace TailwindUpgrade.Plugin

/-- A plugin of a configuration: what it is called, and its module, null if that is unknown. -/
structure Descriptor where
  name : Text
  module : Value

namespace Descriptor

/-- The plugin that an entry of the list describes. -/
def ofValue (v : Value) : Descriptor :=
  match v with
  | .object fields =>
    ⟨((Record.get? "name" fields).map Value.display).getD [],
      (Record.get? "module" fields).getD .null⟩
  | other => ⟨other.display, .null⟩

/-- The name and module of a plugin in one text, in which it is looked for. -/
def identity (d : Descriptor) : Text :=
  d.name ++ " " ++ if d.module.isTruthy then d.module.display else ""

/-- Which plugins are told apart. -/
inductive Kind where
  | typography
  | daisy
  | plain (module : Text)
  | unknown
  deriving DecidableEq

/-- What kind of plugin a descriptor describes. -/
def kind (d : Descriptor) : Kind :=
  if Text.occursIn "typography" d.identity then .typography
  else if Text.occursIn "daisyui" d.identity then .daisy
  else if d.module.isTruthy then .plain d.module.display
  else .unknown

end Descriptor

/-- The line that loads a module. -/
def loadLine (module : Text) : Text := "@plugin \"" ++ module ++ "\";"

/-- The block that daisyUI gets when it is listed, with or without settings. -/
def listedDaisyBlock (config : Value) : Reported Notice (List Text) :=
  (daisyBlock config).map fun lines => if lines.isEmpty then [loadLine "daisyui"] else lines

/-- The blocks for plugins, given whether daisyUI already has its block. -/
def blocksFrom (config : Value) (daisyDone : Bool) :
    List Descriptor → Reported Notice (List (List Text))
  | [] => if daisyDone then .silent []
    else (daisyBlock config).map fun lines => if lines.isEmpty then [] else [lines]
  | d :: rest =>
    match d.kind with
    | .typography => (typographyBlock config).andThen fun block =>
      (blocksFrom config daisyDone rest).map (block :: ·)
    | .daisy =>
      if daisyDone then blocksFrom config daisyDone rest
      else (listedDaisyBlock config).andThen fun block =>
        (blocksFrom config true rest).map (block :: ·)
    | .plain module => (blocksFrom config daisyDone rest).map ([loadLine module] :: ·)
    | .unknown => (Reported.say [.unknownPlugin d.name]).andThen fun _ =>
      blocksFrom config daisyDone rest

/-- The plugins that a configuration lists. -/
def listed (config : Value) : List Descriptor :=
  match config.field? "plugins" with
  | some (.array items) => items.map Descriptor.ofValue
  | _ => []

/-- The blocks for the plugins of a configuration. -/
def blocks (config : Value) : Reported Notice (List (List Text)) :=
  blocksFrom config false (listed config)

end TailwindUpgrade.Plugin
