/-
TailwindUpgrade/Plugin/Typography.lean

The typography plugin with the overrides of its default style. An override is a property with a
value, where null resets the property, or a selector with overrides of its own, which becomes a
nested block. Spread expressions are left out, each with a notice.
-/
import TailwindUpgrade.Plugin.Setting
import TailwindUpgrade.Reported
import TailwindUpgrade.Text.Blank
import TailwindUpgrade.Text.Line

namespace TailwindUpgrade.Plugin

/-- The indentation of a nesting depth. -/
def indent (depth : Nat) : Text := Text.spaces (2 * depth)

/-- Whether a value resets the property it is given to. -/
def isReset : Value → Bool
  | .null => true
  | .str text => text = "null"
  | _ => false

/-- The declaration of a property that is not given as a block. -/
def overrideLine (depth : Nat) (key : Text) (value : Value) : Text :=
  let text : Text := if isReset value then "initial" else cssValue value
  indent depth ++ propertyName key ++ ": " ++ text ++ ";"

mutual

/-- The lines of one override. -/
def overrideLinesOf (depth : Nat) (key : Text) : Value → List Text
  | .object overrides =>
    Text.block (indent depth) key (overrideLines (depth + 1) overrides)
  | value => [overrideLine depth key value]

/-- The lines of overrides, spread expressions left out. -/
def overrideLines (depth : Nat) : List (Text × Value) → List Text
  | [] => []
  | (key, value) :: rest =>
    (if isSpread key then [] else overrideLinesOf depth key value) ++ overrideLines depth rest

end

mutual

/-- The spread expressions inside one override. -/
def spreadsOf : Value → List Text
  | .object overrides => spreads overrides
  | _ => []

/-- The keys of the spread expressions among overrides, at any depth, but not inside one another. -/
def spreads : List (Text × Value) → List Text
  | [] => []
  | (key, value) :: rest => (if isSpread key then [key] else spreadsOf value) ++ spreads rest

end

/-- The overrides that a configuration has for the default style. -/
def typographyOverrides (config : Value) : Record Value :=
  ((["theme", "extend", "typography", "DEFAULT", "css"].foldl
    (fun node name => node.bind (Value.field? name)) (some config)).bind Value.fields?).getD []

/-- The block of the typography plugin: a single line if there is nothing to override. -/
def typographyBlock (config : Value) : Reported Notice (List Text) :=
  let overrides := typographyOverrides config
  let lines := overrideLines 1 overrides
  let head : Text := "@plugin \"@tailwindcss/typography\""
  ⟨if lines.isEmpty then [head ++ ";"] else Text.block [] head lines,
    (spreads overrides).map .typographySpread⟩

end TailwindUpgrade.Plugin
