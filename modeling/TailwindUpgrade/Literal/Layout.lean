/-
TailwindUpgrade/Literal/Layout.lean

Layout: the blanks and comments that may stand between the parts of a literal. A line comment runs
through the line feed that ends it, or to the end of the text; a block comment has to be closed.

`layout` reads as much layout as there is, and `peek` looks at the character after it.
-/
import TailwindUpgrade.Literal.Fault
import TailwindUpgrade.Text.Blank

namespace TailwindUpgrade.Literal

/-- The length of the rest of a line, with the line feed that ends it. -/
def lineLength : Text → Nat
  | [] => 0
  | c :: rest => if c = '\n' then 1 else lineLength rest + 1

/-- The length of the rest of a block comment, with the mark that closes it. -/
def blockLength? : Text → Option Nat
  | [] => none
  | .char '*' :: .char '/' :: _ => some 2
  | _ :: rest => (blockLength? rest).map (· + 1)

/-- Reads the comment at the front of a text; where there is none, nothing is taken. -/
def comment : Text → Reading Unit
  | .char '/' :: .char '/' :: rest => .ok ((), lineLength rest + 2)
  | .char '/' :: .char '*' :: rest =>
    match blockLength? rest with
    | some n => .ok ((), n + 2)
    | none => .error ⟨.unterminatedComment, 0⟩
  | _ => .ok ((), 0)

/-- Reads all blanks and comments at the front of a text. -/
def layout : Text → Reading Unit
  | [] => .ok ((), 0)
  | c :: rest =>
    if Text.isBlank c then (layout rest).further 1
    else
      match comment (c :: rest) with
      | .error f => .error f
      | .ok ((), 0) => .ok ((), 0)
      | .ok ((), n + 1) => (layout (rest.drop n)).further (n + 1)
termination_by s => s.length
decreasing_by all_goals simp only [List.length_drop, List.length_cons]; omega

/-- Reads all layout and looks at the character after it, which is not taken. -/
def peek (s : Text) : Reading (Option CodePoint) :=
  match layout s with
  | .error f => .error f
  | .ok ((), n) => .ok ((s.drop n).head?, n)

/-- Reads layout and then one given mark. -/
def expect (mark : CodePoint) (s : Text) : Reading Unit :=
  match peek s with
  | .error f => .error f
  | .ok (found, n) =>
    if found = some mark then .ok ((), n + 1) else .error ⟨.expectedMark mark found, n⟩

/-- Reads layout up to the mark after an entry, which is not taken: a comma, as `true`, or the
closing bracket of the entry's container, as `false`. -/
def separator (closer : CodePoint) (s : Text) : Reading Bool :=
  match peek s with
  | .error f => .error f
  | .ok (found, n) =>
    if found = some (.char ',') then .ok (true, n)
    else if found = some closer then .ok (false, n)
    else .error ⟨.expectedSeparator closer found, n⟩

/-- Reads what ends an entry: a comma, which is taken, or the closing bracket, which is not. -/
def endOfEntry (closer : CodePoint) (s : Text) : Reading Unit :=
  match separator closer s with
  | .error f => .error f
  | .ok (comma, n) => .ok ((), if comma then n + 1 else n)

/-- Reads the end of a text: layout, with at most one semicolon in it. -/
def finish (s : Text) : Reading Unit :=
  match peek s with
  | .error f => .error f
  | .ok (found, n) =>
    let n := if found = some (.char ';') then n + 1 else n
    match (peek (s.drop n)).further n with
    | .error f => .error f
    | .ok (some c, k) => .error ⟨.unexpected c, k⟩
    | .ok (none, k) => .ok ((), k)

end TailwindUpgrade.Literal
