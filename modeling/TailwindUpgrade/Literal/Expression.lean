/-
TailwindUpgrade/Literal/Expression.lean

Expressions, which are taken whole without being understood. An expression ends before a comma or a
closing bracket that belongs to what is around it, or at the end of the text; strings, comments and
bracketed parts are taken as units. Its source is trimmed and not empty.

`expressionLength` keeps the closing brackets that are still due, the innermost first.
-/
import TailwindUpgrade.Literal.Layout
import TailwindUpgrade.Literal.Quote

namespace TailwindUpgrade.Literal

/-- The bracket that closes an opening one. -/
def closerOf? : CodePoint → Option CodePoint
  | .char '(' => some ')'
  | .char '[' => some ']'
  | .char '{' => some '}'
  | _ => none

/-- A closing bracket. -/
def isCloser (c : CodePoint) : Bool := c == ')' || c == ']' || c == '}'

/-- Whether a comment begins at the front of a text. -/
def beginsComment : Text → Bool
  | .char '/' :: c :: _ => c == '/' || c == '*'
  | _ => false

/-- Reads to the end of an expression inside of which `closers` are still due. -/
def expressionEnd : Text → Text → Reading Unit
  | closers, [] =>
    match closers with
    | [] => .ok ((), 0)
    | closer :: _ => .error ⟨.missingCloser closer, 0⟩
  | closers, c :: rest =>
    if isQuote c then
      match string (c :: rest) with
      | .error f => .error f
      | .ok (_, n) => (expressionEnd closers (rest.drop (n - 1))).further n
    else if beginsComment (c :: rest) then
      match comment (c :: rest) with
      | .error f => .error f
      | .ok (_, n) => (expressionEnd closers (rest.drop (n - 1))).further n
    else
      match closerOf? c with
      | some closer => (expressionEnd (closer :: closers) rest).further 1
      | none =>
        if isCloser c then
          match closers with
          | [] => .ok ((), 0)
          | due :: outer =>
            if c = due then (expressionEnd outer rest).further 1
            else .error ⟨.expectedMark due (some c), 0⟩
        else if c = ',' ∧ closers = [] then .ok ((), 0)
        else (expressionEnd closers rest).further 1
termination_by _ s => s.length
decreasing_by all_goals simp only [List.length_drop, List.length_cons]; omega

/-- Reads one expression as its trimmed source. -/
def expression (s : Text) : Reading Text :=
  match layout s with
  | .error f => .error f
  | .ok ((), n) =>
    let body := s.drop n
    match expressionEnd [] body with
    | .error f => .error (f.further n)
    | .ok ((), k) =>
      let source := Text.strip (body.take k)
      if source = [] then .error ⟨.expectedValue, n⟩ else .ok (source, n + k)

end TailwindUpgrade.Literal
