/-
TailwindUpgrade/Sheet/Layer.lean

The base and the component layer of a stylesheet, as they are read to be written again.

Of a rule in the base layer the selector and the declarations are kept, of an at-rule its source. A
declaration is a line of a name, a colon, the trimmed value and the mark of importance; at-rules
between declarations, such as the application of utility classes, are kept as they stand, without
the semicolon that ends them.

Of the component layer those rules are kept whose selector is a single class. Such a rule is a
point, a class name, blanks, and all that stands between an opening brace and the next closing one,
so a nested block ends with its first closing brace. A class that is defined twice keeps its place
and its last definition. What is neither such a rule nor a comment is not carried over.
-/
import TailwindUpgrade.Css.Node
import TailwindUpgrade.Literal.Layout
import TailwindUpgrade.Literal.Record
import TailwindUpgrade.Reported
import TailwindUpgrade.Text.Blank
import TailwindUpgrade.Text.CodePoint
import TailwindUpgrade.Text.Search

namespace TailwindUpgrade.Sheet

variable (lib : Css.Library)

/-! ### Notices -/

/-- Something in a layer that is not carried over, or not as often as it was written. -/
inductive Notice where
  | droppedPart (selector : Text)
  | unreadableBase (reason : Text)
  | redefined (name : Text)
  | leftover
  deriving DecidableEq

/-- The wording of a notice. -/
def Notice.message : Notice → Text
  | droppedPart selector =>
    "Could not read part of the rule '" ++ selector ++ "'; it was dropped"
  | unreadableBase reason =>
    "Base layer contains unreadable CSS (" ++ reason ++ "); it was dropped"
  | redefined name =>
    "Component '." ++ name ++ "' is defined more than once; the last definition was kept"
  | leftover =>
    "Components section contains CSS that is not a simple .class rule; it was not carried over"

/-! ### Declarations -/

/-- The text of a declaration. -/
def declarationText (d : Css.Declaration) : Text :=
  d.name ++ ": " ++ Text.strip (lib.write d.value) ++ if d.important then " !important" else ""

/-- The text of an at-rule in a body, without final semicolons. -/
def nestedRuleText (rule : Css.AtRule) : Text :=
  ((Text.strip (lib.writeRule rule)).reverse.dropWhile (· == .char ';')).reverse

/-- The line for a part of a body, or nothing if that part is unreadable. -/
def lineOf? : Css.BodyItem → Option Text
  | .declaration d => some (declarationText lib d)
  | .atRule rule => some (nestedRuleText lib rule)
  | .unreadable => none

/-- The lines for the parts of a body, and a notice for each one that is unreadable. -/
def declarations (items : List Css.BodyItem) (selector : Text) : Reported Notice (List Text) :=
  ⟨items.filterMap (lineOf? lib),
    (items.filter fun item => (lineOf? lib item).isNone).map fun _ => .droppedPart selector⟩

/-- The lines for the text of a body. -/
def declarationsOfText (body selector : Text) : Reported Notice (List Text) :=
  declarations lib (lib.bodyItemsOfText body) selector

/-! ### The base layer -/

/-- A rule of the base layer. -/
inductive BaseRule where
  | rule (selector : Text) (declarations : List Text)
  | atRule (keyword source : Text)
  deriving DecidableEq

/-- The base rule for a part of a stylesheet, if it is readable. -/
def baseRule : Css.Rule → Reported Notice (List BaseRule)
  | .qualified prelude body =>
    let selector := Text.strip (lib.write prelude)
    (declarations lib (lib.bodyItems body) selector).map fun lines => [.rule selector lines]
  | .atRule rule =>
    .silent [.atRule ("@" ++ rule.name) (Text.strip (lib.writeRule rule))]
  | .unreadable reason => ⟨[], [.unreadableBase reason]⟩

/-- The rules of the base layer. -/
def baseRules (css : Text) : Reported Notice (List BaseRule) :=
  let parts := (lib.stylesheet css).map (baseRule lib)
  ⟨parts.flatMap (·.value), parts.flatMap (·.notices)⟩

/-! ### The component layer -/

/-- A character of a class name. -/
def isClassChar (c : CodePoint) : Bool := c.isAlphanum || c == '_' || c == '-'

/-- A simple class rule at the front of a text: the class name and what stands in its braces. -/
def classRule? : Text.Matcher (Text × Text)
  | .char '.' :: rest =>
    let name := rest.takeWhile isClassChar
    match (rest.dropWhile isClassChar).dropWhile Text.isBlank with
    | .char '{' :: inside =>
      let body := inside.takeWhile (· ≠ .char '}')
      match inside.dropWhile (· ≠ .char '}') with
      | _ :: after => if name = [] then none else some ((name, body), after)
      | [] => none
    | _ => none
  | _ => none

/-- A closed comment at the front of a text. -/
def closedComment? : Text.Matcher Unit
  | .char '/' :: .char '*' :: rest => (Literal.blockLength? rest).map fun n => ((), rest.drop n)
  | _ => none

/-- The names in a list that stand there a second time or more, given those that came before it. -/
def repeated (seen : List Text) : List Text → List Text
  | [] => []
  | name :: rest =>
    if name ∈ seen then name :: repeated seen rest else repeated (name :: seen) rest

/-- The classes defined by simple rules, each with its trimmed body, as often as they are written.
-/
def classRules (css : Text) : List (Text × Text) :=
  (Text.allMatches classRule? css).map fun (name, body) => (name, Text.strip body)

/-- Whether anything but blanks and comments stands between the simple class rules. -/
def hasLeftover (css : Text) : Bool :=
  let between := Text.replaceMatches classRule? (fun _ => []) css
  Text.strip (Text.replaceMatches closedComment? (fun _ => []) between) ≠ []

/-- The component classes with their bodies, in the order in which they are first defined. -/
def components (css : Text) : Reported Notice (Record Text) :=
  let rules := classRules css
  ⟨Record.ofList rules,
    (repeated [] (rules.map (·.1))).map .redefined ++ if hasLeftover css then [.leftover] else []⟩

end TailwindUpgrade.Sheet
