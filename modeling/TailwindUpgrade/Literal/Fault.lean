/-
TailwindUpgrade/Literal/Fault.lean

What can be wrong with a literal, and where. A reader is given the text from some place on and looks
no further back, so it says where a problem lies by how many characters ahead of that place it is;
`Fault.further` moves a fault when its reader was itself started further on.

Most problems are ones of the form of a literal.  Two are not: there may be no text to begin a
string with, and a numeral may be of good form and have more digits than an integer is read from.
Who reads a literal and can do without it is prepared for the first kind alone (`Problem.isSyntax`).

A `Reading` is what a reader makes of the front of a text: a value and how many characters were
taken for it, or a fault.
-/
import TailwindUpgrade.Text.Digit

namespace TailwindUpgrade.Literal

/-- What is wrong with a literal. Where another character than the one found could have stood, the
one found is kept; `none` is the end of the text. -/
inductive Problem where
  | unterminatedComment
  | unterminatedString
  | noString
  | unexpectedEnd
  | expectedMark (mark : CodePoint) (found : Option CodePoint)
  | expectedSeparator (closer : CodePoint) (found : Option CodePoint)
  | expectedKey (found : Option CodePoint)
  | expectedColon (key : Text)
  | missingCloser (closer : CodePoint)
  | expectedValue
  | unexpected (found : CodePoint)
  | longNumeral (digits : Nat)
  deriving DecidableEq

/-- A problem and the number of characters before it. -/
structure Fault where
  problem : Problem
  offset : Nat
  deriving DecidableEq

/-- The name of what was found: a character, or the end of the text. -/
def foundText : Option CodePoint → Text
  | some c => [c]
  | none => "end of input"

/-- The wording of a problem. -/
def Problem.message : Problem → Text
  | unterminatedComment => "Unterminated comment"
  | unterminatedString => "Unterminated string"
  | noString => "string index out of range"
  | unexpectedEnd => "Unexpected end of input"
  | expectedMark mark found =>
    "Expected '" ++ [mark] ++ "' but found '" ++ foundText found ++ "'"
  | expectedSeparator closer found =>
    "Expected ',' or '" ++ [closer] ++ "' but found '" ++ foundText found ++ "'"
  | expectedKey found => "Expected property key but found '" ++ foundText found ++ "'"
  | expectedColon key => "Expected ':' after '" ++ key ++ "'"
  | missingCloser closer => "Missing '" ++ [closer] ++ "'"
  | expectedValue => "Expected a value"
  | unexpected found => "Unexpected '" ++ [found] ++ "'"
  | longNumeral digits =>
    "Exceeds the limit (4300 digits) for integer string conversion: value has " ++
      natText digits ++ " digits"

/-- Whether a problem is one of the form of a literal. -/
def Problem.isSyntax : Problem → Bool
  | noString | longNumeral _ => false
  | _ => true

namespace Fault

/-- A fault seen from `n` characters further back. -/
def further (n : Nat) (f : Fault) : Fault := ⟨f.problem, n + f.offset⟩

@[simp] theorem further_zero (f : Fault) : further 0 f = f := by simp [further]

@[simp] theorem further_further (n m : Nat) (f : Fault) :
    further n (further m f) = further (n + m) f := by
  simp [further, Nat.add_assoc]

/-- The wording of a fault, with its position if it is one of form. -/
def message (f : Fault) : Text :=
  if f.problem.isSyntax then f.problem.message ++ " at position " ++ natText f.offset
  else f.problem.message

end Fault

/-- What a reader makes of the front of a text: a value and the number of characters taken, or a
fault. -/
abbrev Reading (α : Type) := Except Fault (α × Nat)

namespace Reading

variable {α β : Type}

/-- A reading that was started `n` characters further on. -/
def further (n : Nat) : Reading α → Reading α
  | .ok (a, k) => .ok (a, n + k)
  | .error f => .error (f.further n)

/-- A reading whose value is changed. -/
def map (f : α → β) : Reading α → Reading β
  | .ok (a, k) => .ok (f a, k)
  | .error e => .error e

/-- Reads one thing and then, from where it ended, another that may depend on it. -/
def andThen (first : Reading α) (next : α → Nat → Reading β) : Reading β :=
  match first with
  | .ok (a, k) => further k (next a k)
  | .error f => .error f

@[simp] theorem further_ok (n : Nat) (a : α) (k : Nat) :
    further n (.ok (a, k)) = .ok (a, n + k) := rfl

@[simp] theorem further_error (n : Nat) (f : Fault) :
    further n (.error f : Reading α) = .error (f.further n) := rfl

@[simp] theorem further_zero (r : Reading α) : further 0 r = r := by
  rcases r with f | ⟨a, k⟩ <;> simp

@[simp] theorem further_further (n m : Nat) (r : Reading α) :
    further n (further m r) = further (n + m) r := by
  rcases r with f | ⟨a, k⟩ <;> simp [Nat.add_assoc]

end Reading

end TailwindUpgrade.Literal
