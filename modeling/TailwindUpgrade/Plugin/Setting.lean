/-
TailwindUpgrade/Plugin/Setting.lean

Settings of plugins: how their keys and values are written as CSS properties and values, and what of
them cannot be carried over.

A property in camel case becomes one in kebab case: a dash comes before each capital that follows a
small letter or a digit, and the capital becomes small. A custom property, which begins with two
dashes, stays as it is.
-/
import TailwindUpgrade.Literal.Display
import TailwindUpgrade.Text.CodePoint
import TailwindUpgrade.Text.Search

namespace TailwindUpgrade.Plugin

/-! ### Notices -/

/-- A plugin or a setting of one that is not carried over. -/
inductive Notice where
  | typographySpread (key : Text)
  | themeSpread (theme source : Text)
  | themeWithoutVariables (theme : Text)
  | unusableTheme (shown : Text)
  | noThemes
  | droppedOption (key : Text)
  | unknownPlugin (name : Text)
  deriving DecidableEq

/-- The wording of a notice. -/
def Notice.message : Notice → Text
  | typographySpread key =>
    "Typography spread '" ++ key ++ "' cannot be resolved statically and was skipped"
  | themeSpread theme source =>
    "daisyUI theme '" ++ theme ++ "' spreads '" ++ source ++ "', which cannot be resolved " ++
      "statically; only its own variables were converted"
  | themeWithoutVariables theme =>
    "daisyUI theme '" ++ theme ++ "' has no variable mapping and was skipped"
  | unusableTheme shown =>
    "daisyUI theme entry " ++ shown ++ " is not a name or a single-theme object; it was skipped"
  | noThemes => "daisyUI theme list is empty; no themes were declared"
  | droppedOption key => "daisyUI option '" ++ key ++ "' has no v5 equivalent and was dropped"
  | unknownPlugin name => "Plugin '" ++ name ++ "' could not be mapped to a module and was skipped"

/-! ### Properties and values -/

/-- A character after which a capital begins a new word. -/
def endsWord (c : CodePoint) : Bool := c.isLower || c.isDigit

/-- Puts text in kebab case, given whether the character before it ends a word. -/
def kebabFrom (wordBefore : Bool) : Text → Text
  | [] => []
  | c :: rest =>
    if wordBefore && c.isUpper then '-' :: c.toLower :: kebabFrom false rest
    else c :: kebabFrom (endsWord c) rest

/-- The CSS property that a key names. -/
def propertyName (key : Text) : Text :=
  if Text.beginsWith "--" key then key else kebabFrom false key

mutual

/-- A value as CSS: truth values in small letters, and the items of a list with commas. -/
def cssValue : Value → Text
  | .bool true => "true"
  | .bool false => "false"
  | .array items => List.intercalate ", " (cssItems items)
  | .object fields => (Value.object fields).display
  | .null => Value.null.display
  | .int n => (Value.int n).display
  | .float x => (Value.float x).display
  | .str text => text
  | .expr source => source

/-- The items of a list as CSS. -/
def cssItems : List Value → List Text
  | [] => []
  | item :: rest => cssValue item :: cssItems rest

end

/-- Whether a key stands for a spread expression. -/
def isSpread (key : Text) : Bool := Text.beginsWith "..." key

end TailwindUpgrade.Plugin
