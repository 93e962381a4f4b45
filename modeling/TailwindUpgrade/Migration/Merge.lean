/-
TailwindUpgrade/Migration/Merge.lean

The new stylesheet, put together from a configuration and the sections of the old stylesheet. Its
parts come in a fixed order, each under a comment that names it and with an empty line after it:
imports other than those of Tailwind itself, the import of Tailwind, the base layer, the media
queries and colours of the theme, the component layer, the plugins, and last the utilities and the
custom rules as they were written, with colour references upgraded. Parts without lines are left
out, and the stylesheet ends with a single line feed.

The base and component layers are blocks of their rules, indented, with colour references upgraded;
a layer without rules is not written at all.

A configuration that is no object gives no stylesheet. The notices about the base layer are given
nevertheless, since it is read before the configuration is looked at.
-/
import TailwindUpgrade.Migration.Notice
import TailwindUpgrade.Plugin.Block
import TailwindUpgrade.Sheet.Layer
import TailwindUpgrade.Sheet.Section
import TailwindUpgrade.Text.Line
import TailwindUpgrade.Theme.Block
import TailwindUpgrade.Theme.ColorReference

namespace TailwindUpgrade.Migration

variable (lib : Css.Library)

/-! ### Layers -/

/-- A rule inside a layer, from its selector and its declarations. -/
def ruleLines (selector : Text) (declarations : List Text) : List Text :=
  Text.block "  " selector (declarations.map fun d => "    " ++ d ++ ";")

/-- A rule of the base layer. -/
def baseLines : Sheet.BaseRule → List Text
  | .rule selector declarations => ruleLines selector (declarations.map Theme.upgradeColors)
  | .atRule _ source => (Text.lines (Theme.upgradeColors source)).map ("  " ++ ·)

/-- The base layer. -/
def baseLayer (rules : List Sheet.BaseRule) : List Text :=
  if rules.isEmpty then [] else Text.block [] "@layer base" (rules.flatMap baseLines)

/-- The declarations of a component class. -/
def componentDeclarations (name body : Text) : Reported Sheet.Notice (List Text) :=
  Sheet.declarationsOfText lib (Theme.upgradeColors body) ("." ++ name)

/-- The component layer. -/
def componentLayer (components : Record Text) : Reported Sheet.Notice (List Text) :=
  let parts := components.map fun (name, body) => (name, componentDeclarations lib name body)
  ⟨if components.isEmpty then []
    else Text.block [] "@layer components"
      (parts.flatMap fun part => ruleLines ("." ++ part.1) part.2.value),
    parts.flatMap fun part => part.2.notices⟩

/-! ### Imports -/

/-- The import of Tailwind in the new stylesheet. -/
def tailwindImport : Text := "@import \"tailwindcss\";"

/-- A quote that may stand around the name of an import. -/
def afterQuote? : Text → Option Text
  | c :: rest => if c = '\"' ∨ c = '\'' then some rest else none
  | [] => none

/-- The text after the optional beginning of a URL. -/
def afterUrlStart (s : Text) : Text :=
  match Text.after? "url(" s with
  | some rest => Text.stripStart rest
  | none => s

/-- The text after the optional name of a part of a module. -/
def afterSubpath (s : Text) : Text :=
  match s with
  | .char '/' :: rest =>
    let isPart (c : CodePoint) : Bool := Text.isWord c || c == '.' || c == '-'
    if (rest.takeWhile isPart).isEmpty then s else rest.dropWhile isPart
  | _ => s

/-- An import of Tailwind or of a part of it at the front of a text. -/
def tailwindImport? : Text.Matcher Unit := fun s => do
  let s ← Text.after? "@import" s
  let s ← Text.afterBlanks? s
  let s ← afterQuote? (afterUrlStart s)
  let s ← Text.after? "tailwindcss" ((Text.after? "@" s).getD s)
  let s ← afterQuote? (afterSubpath s)
  return ((), s)

/-- Whether a line imports Tailwind or a part of it. -/
def importsTailwind (line : Text) : Bool :=
  (Text.firstMatch tailwindImport? line).isSome

/-- The imports that are carried over: all but those of Tailwind itself, which gets one of its
own. -/
def carriedImports (lines : List Text) : List Text :=
  lines.filter fun line => !importsTailwind line

/-- Lines with an empty line after them. -/
def spaced (lines : List Text) : List Text := lines ++ [[]]

/-- A part of the stylesheet under its title; nothing if it has no lines. -/
def titled (title : Text) (lines : List Text) : List Text :=
  if lines.isEmpty then [] else spaced (("/* " ++ title ++ " */") :: lines)

/-- Whether a line is blank. -/
def isBlankLine (line : Text) : Bool := line.all Text.isBlank

/-- The lines between the first and the last one that are not blank. -/
def trimBlankLines (lines : List Text) : List Text :=
  ((lines.dropWhile isBlankLine).reverse.dropWhile isBlankLine).reverse

/-- The lines of a section that is carried over as it was written. -/
def carriedLines (lines : List Text) : List Text :=
  (trimBlankLines lines).map Theme.upgradeColors

/-- The part of the stylesheet that loads the plugins, with an empty line after each block. -/
def pluginPart (blocks : List (List Text)) : List Text :=
  if blocks.isEmpty then [] else "/* Plugin configurations */" :: blocks.flatMap spaced

/-- Lines as a text that ends with a single line feed. -/
def stylesheetText (lines : List Text) : Text :=
  ((Text.joinLines lines).reverse.dropWhile (· == .char '\n')).reverse ++ "\n"

/-- What a migration gives: a stylesheet, which is empty if it failed, and what there is to say. -/
structure Outcome where
  css : Text
  notices : List Notice
  failure : Option Failure
  deriving DecidableEq

/-- The lines of the new stylesheet. -/
def mergedLines (config : Value) (sections : Sheet.Sections)
    (base : List Sheet.BaseRule) : Reported Notice (List Text) := do
  let theme := (config.field? "theme").getD .null
  let colors ← (Theme.colorBlock theme).mapNotices .theme
  let found ← (Sheet.components (sections.text .components)).mapNotices .sheet
  let components ← (componentLayer lib found).mapNotices .sheet
  let plugins ← (Plugin.blocks config).mapNotices .plugin
  return titled "Imports" (carriedImports sections.imports) ++
    titled "Import Tailwind" [tailwindImport] ++
    titled "Base layer" (baseLayer base) ++
    titled "Custom media queries" (Theme.mediaQueries theme) ++
    titled "Theme" colors ++
    titled "Components" components ++
    pluginPart plugins ++
    titled "Utilities" (carriedLines sections.utilities) ++
    titled "Custom styles" (carriedLines sections.custom)

/-- Puts the new stylesheet together. -/
def merge (config : Value) (sections : Sheet.Sections) : Outcome :=
  let base := (Sheet.baseRules lib (sections.text .base)).mapNotices .sheet
  match config with
  | .object _ =>
    let merged := base.andThen (mergedLines lib config sections)
    ⟨stylesheetText merged.value, merged.notices, none⟩
  | other => ⟨"", base.notices, some (.noObject other.kindName)⟩

end TailwindUpgrade.Migration
