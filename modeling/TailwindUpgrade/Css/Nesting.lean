/-
TailwindUpgrade/Css/Nesting.lean

Matching brackets. Lexemes are taken one by one, with a stack of the brackets that are still open
and of the nodes before each of them. A closing bracket ends the innermost open one if it is of its
kind; any other closing bracket is damage where it stands. Whatever is open at the end of the text
is closed there.
-/
import TailwindUpgrade.Css.Lexeme

namespace TailwindUpgrade.Css

/-- What opened a bracket: the bracket alone, or the name of a function before it. -/
inductive Opening where
  | bracket (bracket : Bracket)
  | call (name : Text)
  deriving DecidableEq

namespace Opening

/-- The bracket that was opened. -/
def kind : Opening → Bracket
  | bracket b => b
  | call _ => .round

/-- The node that the bracket and its content make. -/
def node (content : List Node) : Opening → Node
  | bracket b => .block b content
  | call name => .function name content

end Opening

/-- An open bracket, with the nodes before it in reverse. -/
structure Frame where
  opening : Opening
  before : List Node

/-- Closes the innermost bracket around the nodes `current`, which are in reverse. -/
def Frame.close (frame : Frame) (current : List Node) : List Node :=
  frame.opening.node current.reverse :: frame.before

/-- Takes one lexeme, given the open brackets and the nodes since the innermost one, in reverse. -/
def takeLexeme : List Frame × List Node → Lexeme → List Frame × List Node
  | (frames, current), .leaf leaf => (frames, .leaf leaf :: current)
  | (frames, current), .opening bracket => (⟨.bracket bracket, current⟩ :: frames, [])
  | (frames, current), .call name => (⟨.call name, current⟩ :: frames, [])
  | ([], current), .closing bracket => ([], .leaf (.damaged (.unmatched bracket)) :: current)
  | (frame :: frames, current), .closing bracket =>
    if frame.opening.kind = bracket then (frames, frame.close current)
    else (frame :: frames, .leaf (.damaged (.unmatched bracket)) :: current)

/-- The nodes that lexemes make when their brackets are matched. -/
def nodesOf (ls : List Lexeme) : List Node :=
  let (frames, current) := ls.foldl takeLexeme ([], [])
  (frames.foldl (fun current frame => frame.close current) current).reverse

/-- The component values of a CSS text. -/
def nodes (text : Text) : List Node := nodesOf (lexemes (preprocess text))

end TailwindUpgrade.Css
