/-
TailwindUpgrade/Literal/Quote.lean

Strings between single quotes, double quotes or backquotes. Only in backquotes may a line feed
stand. A backslash takes the character after it: seven letters and digits name a control, `u` with
four hexadecimal digits is the code point with that number, an escaped line feed is dropped, and
every other character stands for itself.

A character beyond U+FFFF is escaped by the two surrogates of UTF-16. They stay two code points of
the string.
-/
import TailwindUpgrade.Literal.Fault
import TailwindUpgrade.Text.Digit

namespace TailwindUpgrade.Literal

/-- The three quotes. -/
def isQuote (c : CodePoint) : Bool := c == '\"' || c == '\'' || c == '\x60'

/-- The character that a letter after a backslash names. -/
def namedEscape (c : CodePoint) : CodePoint :=
  match c with
  | .char 'n' => '\n'
  | .char 't' => '\t'
  | .char 'r' => '\r'
  | .char 'b' => '\x08'
  | .char 'f' => '\x0c'
  | .char 'v' => '\x0b'
  | .char '0' => '\x00'
  | other => other

/-- What the character `c` after a backslash stands for, and how many characters of the text after
it belong to the escape. -/
def escape (c : CodePoint) (rest : Text) : Text × Nat :=
  let digits := rest.take 4
  if c = 'u' ∧ digits.length = 4 ∧ digits.all Text.isHex then
    ([.ofNat (Text.hexNumber digits)], 4)
  else if c = '\n' then ([], 0)
  else ([namedEscape c], 0)

/-- The value of a string from after its opening quote, and the number of characters up to and with
its closing quote; nothing if it is not closed. -/
def stringBody? (quote : CodePoint) : Text → Option (Text × Nat)
  | [] => none
  | c :: rest =>
    if c = '\\' then
      match rest with
      | [] => none
      | e :: more =>
        let (value, k) := escape e more
        (stringBody? quote (more.drop k)).map fun (after, n) => (value ++ after, n + k + 2)
    else if c = quote then some ([], 1)
    else if c = '\n' ∧ quote ≠ '\x60' then none
    else (stringBody? quote rest).map fun (after, n) => (c :: after, n + 1)
termination_by s => s.length
decreasing_by all_goals simp only [List.length_drop, List.length_cons]; omega

/-- Reads a string, whose quote is the first character of the text; there has to be one. -/
def string : Text → Reading Text
  | [] => .error ⟨.noString, 0⟩
  | quote :: rest =>
    match stringBody? quote rest with
    | some (value, n) => .ok (value, n + 1)
    | none => .error ⟨.unterminatedString, 0⟩

end TailwindUpgrade.Literal
