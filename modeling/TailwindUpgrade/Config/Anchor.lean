/-
TailwindUpgrade/Config/Anchor.lean

Where a configuration stands in its source: in the object that is exported as default and satisfies
the type of configurations. The object begins at the first exported brace and ends at the last brace
after which the type is named; what is between the two is not looked at here. If the first exported
brace has no end after it, no later one has.

`printed` writes a configuration in the form that is found.
-/
import TailwindUpgrade.Literal.Print
import TailwindUpgrade.Text.Blank
import TailwindUpgrade.Text.Search
import TailwindUpgrade.Text.Word

namespace TailwindUpgrade.Config

/-- The beginning of the default export of an object, through its opening brace. -/
def exportStart? : Text.Matcher Unit := fun s => do
  let s ← Text.after? "export" s
  let s ← Text.afterBlanks? s
  let s ← Text.after? "default" s
  let s ← Text.after? "\x7b" (Text.stripStart s)
  return ((), s)

/-- Whether the text after a closing brace names the type of configurations. -/
def namesConfigType (s : Text) : Bool :=
  let after := do
    let s ← Text.after? "satisfies" (Text.stripStart s)
    let s ← Text.afterBlanks? s
    Text.after? "Config" s
  after.any fun s => !Text.beginsWithWord s

/-- The text through its last closing brace after which the type of configurations is named. -/
def throughLastEnd : Text → Option Text
  | [] => none
  | c :: rest =>
    match throughLastEnd rest with
    | some body => some (c :: body)
    | none => if c = '}' ∧ namesConfigType rest then some [c] else none

/-- The source of the object that holds a configuration. -/
def objectSource? (source : Text) : Option Text :=
  (Text.firstMatch exportStart? source).bind fun (_, body) =>
    (throughLastEnd body).map ('{' :: ·)

/-- A configuration as the source text of a module that exports it. -/
def printed (config : Value) : Text :=
  "export default " ++ config.json 0 ++ " satisfies Config;\n"

end TailwindUpgrade.Config
