/-
TailwindUpgrade/Config/Binding.lean

The names that a source binds to modules, by import statements and by calls of `require`. All import
statements come before all `require` statements, whatever their order in the source; a name that is
bound again keeps its place and takes the later module.
-/
import TailwindUpgrade.Literal.Record
import TailwindUpgrade.Text.Blank
import TailwindUpgrade.Text.Word

namespace TailwindUpgrade.Config

/-- A module name between quotes. -/
def moduleName? : Text.Matcher Text
  | [] => none
  | c :: rest =>
    let isQuote (c : CodePoint) : Bool := c == '\'' || c == '\"'
    let name := rest.takeWhile fun c => !isQuote c
    match rest.dropWhile fun c => !isQuote c with
    | _ :: after => if isQuote c ∧ name ≠ [] then some (name, after) else none
    | [] => none

/-- The optional beginning of an import of a whole module, which binds it to the name after it. -/
def afterStarAs (s : Text) : Text :=
  let after := do
    let s ← Text.after? "*" s
    let s ← Text.afterBlanks? s
    let s ← Text.after? "as" s
    Text.afterBlanks? s
  after.getD s

/-- An import statement for a module or its default export: the name that is bound, and the
module. -/
def importBinding? : Text.Matcher (Text × Text) := fun s => do
  let s ← Text.after? "import" s
  let s ← Text.afterBlanks? s
  let (name, s) ← Text.identifier? (afterStarAs s)
  let s ← Text.afterBlanks? s
  let s ← Text.after? "from" s
  let s ← Text.afterBlanks? s
  let (module, s) ← moduleName? s
  return ((name, module), s)

/-- A call of `require`, with the module that is required. -/
def requireCall? : Text.Matcher Text := fun s => do
  let s ← Text.after? "require(" s
  let (module, s) ← moduleName? (Text.stripStart s)
  let s ← Text.after? ")" (Text.stripStart s)
  return (module, s)

/-- The text after a keyword that begins a binding. -/
def afterKeyword? (s : Text) : Option Text :=
  let keywords : List Text := ["const", "let", "var", "import"]
  keywords.findSome? fun keyword => Text.after? keyword s

/-- A statement that binds a name to a required module. -/
def requireBinding? : Text.Matcher (Text × Text) := fun s => do
  let s ← afterKeyword? s
  let s ← Text.afterBlanks? s
  let (name, s) ← Text.identifier? s
  let s ← Text.after? "=" (Text.stripStart s)
  let (module, s) ← requireCall? (Text.stripStart s)
  return ((name, module), s)

/-- The names that a source binds, each with its module. -/
def bindings (source : Text) : Record Text :=
  let found := Text.allMatches importBinding? source ++
    Text.allMatches requireBinding? source
  Record.ofList found

end TailwindUpgrade.Config
