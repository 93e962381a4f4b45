/-
TailwindUpgrade/Config/Notice.lean

What is lost or taken otherwise than it was written when a configuration is read.
-/
import TailwindUpgrade.Literal.Fault
import TailwindUpgrade.Text.Blank

namespace TailwindUpgrade.Config

/-- A part of a configuration that could not be read as what it should be. -/
inductive Notice where
  | themeNoObject (preview : Text)
  | screensNoObject (preview : Text)
  | numericScreen (name shown : Text)
  | unsupportedScreen (name : Text)
  | extendNoObject (preview : Text)
  | typographyWithoutStyle
  | typographyNoObject
  | daisyNoObject
  | daisyFallback
  | unsupportedThemes (preview : Text)
  | darkThemeNoText
  | pluginsNoArray (preview : Text)
  | pluginsCutShort (fault : Literal.Fault) (kept : Nat)
  | entriesCutShort (label : Text) (fault : Literal.Fault)
  | unparsable (label : Text) (fault : Literal.Fault)
  deriving DecidableEq

/-- The wording of a notice. -/
def Notice.message : Notice → Text
  | themeNoObject preview =>
    "theme is not an object literal (" ++ preview ++ "); screens and typography were not converted"
  | screensNoObject preview =>
    "theme.screens is not an object literal (" ++ preview ++ "); custom media queries were skipped"
  | numericScreen name shown =>
    "Screen '" ++ name ++ "' has a numeric value; it was converted to the string '" ++ shown ++ "'"
  | unsupportedScreen name => "Screen '" ++ name ++ "' uses an unsupported value and was skipped"
  | extendNoObject preview =>
    "theme.extend is not an object literal (" ++ preview ++ ") and was not converted"
  | typographyWithoutStyle =>
    "theme.extend.typography has no DEFAULT.css object; typography overrides were skipped"
  | typographyNoObject =>
    "theme.extend.typography is not an object literal; typography overrides were skipped"
  | daisyNoObject => "daisyui settings are not an object literal"
  | daisyFallback => "daisyui settings fell back to the default theme list (themes: true)"
  | unsupportedThemes preview =>
    "daisyui.themes has an unsupported value (" ++ preview ++ "); using themes: true"
  | darkThemeNoText => "daisyui.darkTheme is not a string and was ignored"
  | pluginsNoArray preview =>
    "plugins is not an array literal (" ++ preview ++ "); no plugins were converted"
  | pluginsCutShort fault kept =>
    "Could not read every entry of plugins: " ++ fault.message ++ "; " ++ natText kept ++
      " plugin(s) were kept"
  | entriesCutShort label fault =>
    "Could not read every property of " ++ label ++ ": " ++ fault.message ++
      "; later properties were skipped"
  | unparsable label fault => "Could not parse " ++ label ++ ": " ++ fault.message

/-- A source text as it is shown in a notice: its words with single spaces between them, cut down to
forty characters. -/
def preview (text : Text) : Text :=
  let shown := List.intercalate " " (Text.words text)
  if shown.length ≤ 40 then shown else shown.take 37 ++ "..."

end TailwindUpgrade.Config
