/-
TailwindUpgrade/Literal/Read.lean

The strict reading of a literal: every part of it has to be one of the values known here, down to
the innermost. An object or array is read entry by entry, a comma between entries and perhaps one
after the last; a string counts as one only if nothing but layout stands between it and a comma, a
closing bracket or the end; and anything else is an expression, which is a keyword or a number if it
is written like one, and is kept as its source otherwise. An integer that is written with too many
digits has no value at all. Values are read however deep they are nested.

Each reader is given the text from where it starts and recurses on a shorter text, or on the same
text as a smaller kind of part: a value is a part of an entry, an entry of a list of entries. The
measure that falls is three times the length of the text, plus the rank of the kind.
-/
import TailwindUpgrade.Literal.Key
import TailwindUpgrade.Literal.Value
import TailwindUpgrade.Number.Numeral

namespace TailwindUpgrade.Literal

/-- The number that a numeral writes: an integer if it is one of digits alone whose size a
floating-point number can hold, else the nearest floating-point number. -/
def numberValue (n : Numeral) : Except Problem Value :=
  match n.integer?, n.nearest.isFinite with
  | some i, true =>
    if n.whole.length ≤ Numeral.maxDigits then .ok (.int i)
    else .error (.longNumeral n.whole.length)
  | _, _ => .ok (.float n.nearest)

/-- The value of an expression: a keyword, a number, or the expression itself. -/
def expressionValue (source : Text) : Except Problem Value :=
  if source = "true" then .ok (.bool true)
  else if source = "false" then .ok (.bool false)
  else if source = "null" ∨ source = "undefined" then .ok .null
  else
    match Numeral.read? source with
    | some n => numberValue n
    | none => .ok (.expr source)

/-- Reads an expression as a value. -/
def bare (s : Text) : Reading Value :=
  match expression s with
  | .error f => .error f
  | .ok (source, n) =>
    match expressionValue source with
    | .ok v => .ok (v, n)
    | .error problem => .error ⟨problem, n⟩

/-- Whether a string may end before what was found after it. -/
def endsValue : Option CodePoint → Bool
  | none => true
  | some c => c == ',' || isCloser c

/-- Reads a string, if nothing but layout stands between it and the end of its value; else the
expression that begins with it. -/
def quotedValue (s : Text) : Reading Value :=
  match string s with
  | .error f => .error f
  | .ok (text, n) =>
    match (peek (s.drop n)).further n with
    | .error f => .error f
    | .ok (found, k) => if endsValue found then .ok (.str text, k) else (expression s).map .expr

/-- The field that a spread expression makes: the dots and the source are its name. -/
def spreadField (source : Text) : Text × Value := (dots ++ source, .expr source)

mutual

/-- Reads layout and a value. -/
def value : Text → Reading Value
  | [] => .error ⟨.unexpectedEnd, 0⟩
  | c :: rest =>
    match peek (c :: rest) with
    | .error f => .error f
    | .ok (none, n) => .error ⟨.unexpectedEnd, n⟩
    | .ok (some found, n) =>
      if found = '{' then
        ((fields (rest.drop n)).map fun entries => .object (Record.ofList entries)).further (n + 1)
      else if found = '[' then ((items (rest.drop n)).map .array).further (n + 1)
      else if isQuote found then (quotedValue ((c :: rest).drop n)).further n
      else (bare ((c :: rest).drop n)).further n
termination_by s => 3 * s.length
decreasing_by all_goals simp only [List.length_drop, List.length_cons]; omega

/-- Reads one entry of an object. -/
def field (s : Text) : Reading (Text × Value) :=
  match head s with
  | .error f => .error f
  | .ok (.spread source, n) => .ok (spreadField source, n)
  | .ok (.shorthand name, n) => .ok ((name, .expr name), n)
  | .ok (.keyed name, n) => ((value (s.drop n)).map fun v => (name, v)).further n
termination_by 3 * s.length + 1
decreasing_by
  simp only [List.length_drop]
  omega

/-- Reads the entries of an object from after its opening brace, with its closing brace. -/
def fields : Text → Reading (List (Text × Value))
  | [] => .error ⟨.expectedKey none, 0⟩
  | c :: rest =>
    match peek (c :: rest) with
    | .error f => .error f
    | .ok (found, n) =>
      if found = some (.char '}') then .ok ([], n + 1)
      else
        match (field ((c :: rest).drop n)).further n with
        | .error f => .error f
        | .ok (entry, k) =>
          match (separator '}' ((c :: rest).drop k)).further k with
          | .error f => .error f
          | .ok (false, m) => .ok ([entry], m + 1)
          | .ok (true, m) => ((fields (rest.drop m)).map (entry :: ·)).further (m + 1)
termination_by s => 3 * s.length + 2
decreasing_by all_goals simp only [List.length_drop, List.length_cons]; omega

/-- Reads one entry of an array. -/
def item (s : Text) : Reading Value :=
  if dots.isPrefixOf s then ((expression (s.drop 3)).map fun e => .expr (dots ++ e)).further 3
  else value s
termination_by 3 * s.length + 1
decreasing_by omega

/-- Reads the entries of an array from after its opening bracket, with its closing bracket. -/
def items : Text → Reading (List Value)
  | [] => .error ⟨.unexpectedEnd, 0⟩
  | c :: rest =>
    match peek (c :: rest) with
    | .error f => .error f
    | .ok (found, n) =>
      if found = some (.char ']') then .ok ([], n + 1)
      else
        match (item ((c :: rest).drop n)).further n with
        | .error f => .error f
        | .ok (entry, k) =>
          match (separator ']' ((c :: rest).drop k)).further k with
          | .error f => .error f
          | .ok (false, m) => .ok ([entry], m + 1)
          | .ok (true, m) => ((items (rest.drop m)).map (entry :: ·)).further (m + 1)
termination_by s => 3 * s.length + 2
decreasing_by all_goals simp only [List.length_drop, List.length_cons]; omega

end

/-- Reads layout and an object. -/
def object (s : Text) : Reading Value :=
  match expect '{' s with
  | .error f => .error f
  | .ok ((), n) =>
    ((fields (s.drop n)).map fun entries => .object (Record.ofList entries)).further n

/-- Reads layout and an array. -/
def array (s : Text) : Reading Value :=
  match expect '[' s with
  | .error f => .error f
  | .ok ((), n) => ((items (s.drop n)).map .array).further n

/-- Reads a text that is one value from its first to its last character. -/
def read (s : Text) : Except Fault Value :=
  match value s with
  | .error f => .error f
  | .ok (v, n) =>
    match (finish (s.drop n)).further n with
    | .error f => .error f
    | .ok _ => .ok v

end TailwindUpgrade.Literal

namespace TailwindUpgrade

/-- Reads a text that is one value from its first to its last character. -/
def Value.read (text : Text) : Except Literal.Fault Value := Literal.read text

end TailwindUpgrade
