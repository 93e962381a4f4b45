/-
TailwindUpgrade/Literal/Key.lean

What an entry of an object begins with. A key is a string, an identifier, or a number of digits with
digits after a point. A key before a colon has a value after it; one before a comma or the closing
brace stands for a variable of that name; and three dots spread an expression into the object.
-/
import TailwindUpgrade.Literal.Expression
import TailwindUpgrade.Text.Digit
import TailwindUpgrade.Text.Word

namespace TailwindUpgrade.Literal

/-- The number at the front of a text that may be a key: digits, and digits after a point. -/
def numberKey? (s : Text) : Option Text :=
  let whole := s.takeWhile Text.isDigit
  if whole = [] then none
  else
    match s.dropWhile Text.isDigit with
    | .char '.' :: rest =>
      let fraction := rest.takeWhile Text.isDigit
      some (if fraction = [] then whole else whole ++ "." ++ fraction)
    | _ => some whole

/-- The key at the front of a text that is written without quotes. -/
def bareKey? (s : Text) : Option Text :=
  match Text.identifier? s with
  | some (name, _) => some name
  | none => numberKey? s

/-- Reads layout and a key. -/
def key (s : Text) : Reading Text :=
  match peek s with
  | .error f => .error f
  | .ok (found, n) =>
    if found.any isQuote then (string (s.drop n)).further n
    else
      match bareKey? (s.drop n) with
      | some name => .ok (name, n + name.length)
      | none => .error ⟨.expectedKey found, n⟩

/-- The beginning of an entry of an object. -/
inductive Head where
  | spread (source : Text)
  | shorthand (key : Text)
  | keyed (key : Text)
  deriving DecidableEq

/-- The three dots before a spread expression. -/
def dots : Text := "..."

/-- Reads the beginning of an entry: a spread with its expression, a key that stands alone, or a key
with the colon after it. -/
def head (s : Text) : Reading Head :=
  if dots.isPrefixOf s then ((expression (s.drop 3)).map .spread).further 3
  else
    match key s with
    | .error f => .error f
    | .ok (name, n) =>
      match (peek (s.drop n)).further n with
      | .error f => .error f
      | .ok (found, k) =>
        if found = some (.char ':') then .ok (.keyed name, k + 1)
        else if found = some (.char ',') ∨ found = some (.char '}') then .ok (.shorthand name, k)
        else .error ⟨.expectedColon name, k⟩

end TailwindUpgrade.Literal
