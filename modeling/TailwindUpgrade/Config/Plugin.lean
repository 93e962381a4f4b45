/-
TailwindUpgrade/Config/Plugin.lean

The plugins of a configuration. Each entry of the list is described by its name, which is its
source, and by its module where that can be told: from a string, which is the module; from a call of
`require`; or from the name that the entry begins with, if the source binds it to a module.

The daisyUI plugin has settings of its own. There is a list of themes in them in any case: all of
them are taken if the list cannot be read, and if there are no settings that can be read at all. A
dark theme is only there if it is a text.
-/
import TailwindUpgrade.Config.Binding
import TailwindUpgrade.Config.Part
import TailwindUpgrade.Literal.Display

namespace TailwindUpgrade.Config

/-! ### The list of plugins -/

/-- The text of an entry that is written as a string in plain quotes. -/
def stringOf? (expression : Text) : Option Text :=
  if Text.beginsWith "'" expression || Text.beginsWith "\"" expression then
    match Value.read expression with
    | .ok (.str text) => some text
    | _ => none
  else none

/-- The module of an entry that is no string. -/
def moduleOf? (bound : Record Text) (expression : Text) : Option Text :=
  match requireCall? expression with
  | some (module, _) => some module
  | none =>
    (Text.identifier? expression).bind fun (name, _) => Record.get? name bound

/-- The description of a plugin, given the names that the source binds. -/
def describe (bound : Record Text) (expression : Text) : Value :=
  match stringOf? expression with
  | some text => .object [("name", .str text), ("module", .str text)]
  | none =>
    .object (("name", .str expression) ::
      ((moduleOf? bound expression).map fun module => (("module" : Text), Value.str module)).toList)

/-- The descriptions of all plugins; nothing if they are no array. -/
def plugins (bound : Record Text) (raw : Text) : Reported Notice (Option Value) :=
  if Text.beginsWith "[" raw then
    let found := Literal.elements raw
    ⟨some (.array (found.list.map (describe bound))),
      found.fault.toList.map fun fault => .pluginsCutShort fault found.list.length⟩
  else ⟨none, [.pluginsNoArray (preview raw)]⟩

/-! ### Settings of daisyUI -/

/-- The list of themes among settings, every theme if there is none that can be read. -/
def daisyThemes (settings : Record Value) : Reported Notice Value :=
  match (Record.get? "themes" settings).getD (.bool true) with
  | .bool all => .silent (.bool all)
  | .str text => .silent (.str text)
  | .array items => .silent (.array items)
  | other => ⟨.bool true, [.unsupportedThemes (preview other.display)]⟩

/-- Settings without a dark theme that is no text. -/
def checkDarkTheme (settings : Record Value) : Reported Notice (Record Value) :=
  match Record.get? "darkTheme" settings with
  | none | some (.str _) => .silent settings
  | some _ => ⟨Record.erase "darkTheme" settings, [.darkThemeNoText]⟩

/-- Settings that stand in for ones that could not be read. -/
def defaultDaisy : Value := .object [("themes", .bool true)]

/-- Settings from the value that their source has. -/
def daisyOf : Value → Reported Notice Value
  | .object settings =>
    (daisyThemes settings).andThen fun themes =>
      (checkDarkTheme (Record.set "themes" themes settings)).map .object
  | .null => ⟨defaultDaisy, [.daisyFallback]⟩
  | _ => ⟨defaultDaisy, [.daisyNoObject, .daisyFallback]⟩

/-- The settings of the daisyUI plugin. -/
def daisy (raw : Text) : Attempt Value :=
  (strict "daisyui" raw).andThen fun value => .whole (daisyOf value)

end TailwindUpgrade.Config
