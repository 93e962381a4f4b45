/-
TailwindUpgrade/Literal/Display.lean

The text of a value where it is put into a message or a stylesheet. Strings and expressions are
shown as their own text there; inside a list or an object they are quoted, an expression with its
kind around it, so that the two can be told apart.
-/
import TailwindUpgrade.Literal.Value
import TailwindUpgrade.Number.Layout
import TailwindUpgrade.Text.Quoted

namespace TailwindUpgrade

namespace Value

/-- Items between an opening and a closing bracket, a comma and a space between neighbours. -/
def bracketed (opener closer : Text) (items : List Text) : Text :=
  opener ++ List.intercalate ", " items ++ closer

mutual

/-- The text of a value inside a list or an object. -/
def quotedText : Value → Text
  | .null => "None"
  | .bool true => "True"
  | .bool false => "False"
  | .int n => intText n
  | .float x => x.text "inf"
  | .str text => Text.quoted text
  | .expr source => "RawExpression(text=" ++ Text.quoted source ++ ")"
  | .array items => bracketed "[" "]" (quotedItems items)
  | .object fields => bracketed "\x7b" "\x7d" (quotedFields fields)

/-- The texts of the items of a list. -/
def quotedItems : List Value → List Text
  | [] => []
  | item :: rest => quotedText item :: quotedItems rest

/-- The texts of the fields of an object, a colon and a space after each name. -/
def quotedFields : List (Text × Value) → List Text
  | [] => []
  | (name, value) :: rest =>
    (Text.quoted name ++ ": " ++ quotedText value) :: quotedFields rest

end

/-- The text of a value that stands by itself. -/
def display : Value → Text
  | .str text => text
  | .expr source => source
  | value => quotedText value

/-- The name of the kind of a value. -/
def kindName : Value → Text
  | .null => "NoneType"
  | .bool _ => "bool"
  | .int _ => "int"
  | .float _ => "float"
  | .str _ => "str"
  | .expr _ => "RawExpression"
  | .array _ => "list"
  | .object _ => "dict"

end Value

end TailwindUpgrade
