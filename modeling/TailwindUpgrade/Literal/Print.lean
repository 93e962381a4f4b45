/-
TailwindUpgrade/Literal/Print.lean

Values printed as JSON over several lines. Each item and field stands on a line of its own, two
spaces further in than the container around it; an empty container is its two brackets. Strings are
printed in ASCII. An expression is printed as the string of its source text, and the infinities by
their names, since JSON has a form for neither.
-/
import TailwindUpgrade.Literal.Value
import TailwindUpgrade.Number.Layout
import TailwindUpgrade.Text.Blank
import TailwindUpgrade.Text.Quoted

namespace TailwindUpgrade

namespace Value

/-- A line break and the indentation of a nesting depth. -/
def newline (depth : Nat) : Text := "\n" ++ Text.spaces (2 * depth)

/-- Printed items between brackets, `depth` being that of the container. -/
def container (opener closer : Text) (depth : Nat) (items : List Text) : Text :=
  if items.isEmpty then opener ++ closer
  else
    opener ++ List.intercalate "," (items.map (newline (depth + 1) ++ ·)) ++ newline depth ++ closer

mutual

/-- A value as JSON, `depth` containers deep. -/
def json (depth : Nat) : Value → Text
  | .null => "null"
  | .bool true => "true"
  | .bool false => "false"
  | .int n => intText n
  | .float x => x.text "Infinity"
  | .str text => Text.jsonString text
  | .expr source => Text.jsonString source
  | .array items => container "[" "]" depth (jsonItems (depth + 1) items)
  | .object fields => container "\x7b" "\x7d" depth (jsonFields (depth + 1) fields)

/-- The items of an array as JSON. -/
def jsonItems (depth : Nat) : List Value → List Text
  | [] => []
  | item :: rest => json depth item :: jsonItems depth rest

/-- The fields of an object as JSON, a colon and a space after each name. -/
def jsonFields (depth : Nat) : List (Text × Value) → List Text
  | [] => []
  | (name, value) :: rest =>
    (Text.jsonString name ++ ": " ++ json depth value) :: jsonFields depth rest

end

end Value

end TailwindUpgrade
