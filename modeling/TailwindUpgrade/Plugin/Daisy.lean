/-
TailwindUpgrade/Plugin/Daisy.lean

The daisyUI plugin: its list of themes, the options that version 5 still knows, and a block of
variables for each theme that is defined in place.

In the declaration of the themes the first one is the default, and the dark one, which is preferred
where the reader prefers dark, comes second if it is not the first; all others follow in order.
-/
import TailwindUpgrade.Literal.Print
import TailwindUpgrade.Plugin.Setting
import TailwindUpgrade.Reported
import TailwindUpgrade.Text.Line
import TailwindUpgrade.Text.Quoted
import TailwindUpgrade.Theme.ColorReference

namespace TailwindUpgrade.Plugin

/-! ### The list of themes -/

/-- Whether a value is the given text. -/
def isText (text : Text) : Value → Bool
  | .str t => t = text
  | _ => false

/-- Whether a text is one of several. -/
def isOneOf (texts : List Text) (text : Text) : Bool := texts.any fun t => t = text

/-- The names of the themes that are dark. -/
def darkNames : List Text := ["dark", "night"]

/-- The dark theme: the one that is set, or else the first that is dark by its name. -/
def darkTheme? (setting : Value) (names : List Text) : Option Value :=
  if setting.isTruthy then some setting
  else (names.find? (isOneOf darkNames)).map .str

/-- The themes with their tags, the first of them being `first`. -/
def themeEntries (first : Text) (others : List Text) (dark : Option Value) : List Text :=
  let tagged :=
    if dark.any (isText first) then [first ++ " --default --prefersdark"]
    else
      (first ++ " --default") ::
        dark.toList.map fun name => name.display ++ " --prefersdark"
  tagged ++ others.filter fun name => !dark.any (isText name)

/-- The declaration of the themes, given the dark theme that is set; empty if there are none. -/
def themeList (names : List Text) (darkSetting : Value) : Text :=
  match names with
  | [] => ""
  | first :: others =>
    let entries := themeEntries first others (darkTheme? darkSetting names)
    "themes: " ++ List.intercalate ", " entries ++ ";"

/-! ### Themes defined in place -/

/-- An entry of a list of themes: a name, a theme with its variables, or neither. -/
inductive ThemeEntry where
  | named (name : Text)
  | custom (name : Text) (settings : Record Value)
  | refused (notice : Notice)

namespace ThemeEntry

/-- What an entry of a list of themes is. -/
def ofValue : Value → ThemeEntry
  | .str name => named name
  | .object [(name, .object settings)] => custom name settings
  | .object [(name, _)] => refused (.themeWithoutVariables name)
  | other => refused (.unusableTheme (Text.quoted (cssValue other)))

/-- The name of a theme. -/
def name? : ThemeEntry → Option Text
  | named name | custom name _ => some name
  | refused _ => none

/-- A theme that is defined in place. -/
def custom? : ThemeEntry → Option (Text × Record Value)
  | custom name settings => some (name, settings)
  | named _ | refused _ => none

/-- The notice about an entry that is no theme. -/
def notice? : ThemeEntry → Option Notice
  | refused notice => some notice
  | named _ | custom .. => none

end ThemeEntry

/-- The line for a variable of a theme. Those that are no colours keep their name; the name of the
theme and of its parent have no line, and neither has a spread expression. -/
def variableLine? : Text × Value → Option Text
  | (key, value) =>
    let text := Theme.colorText (cssValue value)
    if isSpread key then none
    else if Text.beginsWith "--" key || key = "font-family" then
      some ("  " ++ key ++ ": " ++ text ++ ";")
    else if key = "name" || key = "parent" then none
    else some ("  --color-" ++ key ++ ": " ++ text ++ ";")

/-- The block that declares the variables of a theme. -/
def themeBlock (name : Text) (settings : Record Value) : Reported Notice (List Text) :=
  ⟨("/* daisyUI theme: " ++ name ++ " */") ::
      Text.block [] "@theme" (settings.filterMap variableLine?),
    (settings.filter fun v => isSpread v.1).map fun v => .themeSpread name (v.1.drop 3)⟩

/-! ### The plugin -/

/-- The declaration of the themes, or nothing if there is none to make. -/
def themesLine? (themes darkSetting : Value) : Option Text :=
  match themes with
  | .bool true => some "themes: light --default, dark --prefersdark;"
  | .bool false => some "themes: false;"
  | .str text => some ("themes: " ++ text ++ ";")
  | .array items =>
    let names := (items.map ThemeEntry.ofValue).filterMap ThemeEntry.name?
    if names.isEmpty then none else some (themeList names darkSetting)
  | _ => none

/-- The entries of a list of themes; other values have none. -/
def themeEntriesOf (themes : Value) : List ThemeEntry :=
  match themes with
  | .array items => items.map ThemeEntry.ofValue
  | _ => []

/-- The notices about a list of themes: one for each entry that is none, and one if none is left. -/
def themeNotices (themes : Value) : List Notice :=
  match themes with
  | .array items =>
    let entries := items.map ThemeEntry.ofValue
    entries.filterMap ThemeEntry.notice? ++
      if (entries.filterMap ThemeEntry.name?).isEmpty then [.noThemes] else []
  | _ => []

/-- The options that keep their meaning. -/
def keptOptions : List Text := ["prefix", "logs", "root"]

/-- The settings that are not options. -/
def themeSettings : List Text := ["themes", "darkTheme"]

/-- The line for an option that keeps its meaning. -/
def optionLine? : Text × Value → Option Text
  | (key, value) =>
    if isOneOf keptOptions key then
      let text := match value with
        | .str text => Text.jsonString text
        | other => cssValue other
      some ("  " ++ key ++ ": " ++ text ++ ";")
    else none

/-- Whether an option is dropped. -/
def isDropped (key : Text) : Bool := !isOneOf (keptOptions ++ themeSettings) key

/-- The blocks of themes that are defined in place, each after an empty line. -/
def themeBlocks (themes : List (Text × Record Value)) : Reported Notice (List Text) :=
  let blocks := themes.map fun (name, settings) => themeBlock name settings
  ⟨blocks.flatMap fun block => "" :: block.value, blocks.flatMap (·.notices)⟩

/-- The block of the plugin for its settings. -/
def daisyBlockOf (settings : Record Value) : Reported Notice (List Text) :=
  let themes := (Record.get? "themes" settings).getD (.bool true)
  let dark := (Record.get? "darkTheme" settings).getD .null
  let custom := themeBlocks ((themeEntriesOf themes).filterMap ThemeEntry.custom?)
  let themeLines := (themesLine? themes dark).toList.map fun line => ("  " : Text) ++ line
  ⟨Text.block [] "@plugin \"daisyui\"" (themeLines ++ settings.filterMap optionLine?) ++
      custom.value,
    themeNotices themes ++ (settings.filter fun s => isDropped s.1).map (.droppedOption ·.1) ++
      custom.notices⟩

/-- The block of the plugin for a configuration, or nothing if that has no settings for it. -/
def daisyBlock (config : Value) : Reported Notice (List Text) :=
  match config.field? "daisyui" with
  | some (.object settings) => daisyBlockOf settings
  | _ => .silent []

end TailwindUpgrade.Plugin
