/-
TailwindUpgrade/Css/Node.lean

CSS as it is taken apart, and what a library has to do that reads and writes it.

A stylesheet consists of component values once it is cut into tokens and its brackets are matched. A
leaf is a single token; a block or a function holds the nodes between its brackets. Text that is no
proper token is kept as damage in its place, so that reading CSS never fails. A string or URL that
the end of the text cuts off is a token all the same, marked as not closed.

A stylesheet is a list of rules: at-rules, and rules that put a block of declarations after a
selector. The body of a rule is a list of declarations and at-rules. What is none of these is kept
in its place as unreadable, so nothing is lost unnoticed.

Nothing is supposed about a `Library` but that it gives results. One is made in `Css.Rule`.
-/
import TailwindUpgrade.Text.CodePoint

namespace TailwindUpgrade.Css

/-- The three pairs of brackets. -/
inductive Bracket where
  | round
  | square
  | curly
  deriving DecidableEq

namespace Bracket

/-- The character that opens a pair. -/
def opener : Bracket → CodePoint
  | round => '('
  | square => '['
  | curly => '{'

/-- The character that closes a pair. -/
def closer : Bracket → CodePoint
  | round => ')'
  | square => ']'
  | curly => '}'

/-- The pair that a character opens. -/
def ofOpener? (c : CodePoint) : Option Bracket :=
  if c = '(' then some round else if c = '[' then some square
  else if c = '{' then some curly else none

/-- The pair that a character closes. -/
def ofCloser? (c : CodePoint) : Option Bracket :=
  if c = ')' then some round else if c = ']' then some square
  else if c = '}' then some curly else none

end Bracket

/-- What stands where the text is no proper token. -/
inductive Damage where
  | badString
  | badUrl
  | unmatched (bracket : Bracket)
  deriving DecidableEq

/-- A token that holds no others. Names, values and units are kept with their escapes resolved;
numbers and marks as they are written. -/
inductive Leaf where
  | whitespace (text : Text)
  | mark (text : Text)
  | ident (name : Text)
  | atKeyword (name : Text)
  | hash (name : Text) (identifier : Bool)
  | string (value : Text) (closed : Bool)
  | url (value : Text) (closed : Bool)
  | unicodeRange (first last : Nat)
  | number (source : Text)
  | percentage (source : Text)
  | dimension (source unit : Text)
  | damaged (damage : Damage)
  deriving DecidableEq

/-- A component value: a token, or what stands between matched brackets. -/
inductive Node where
  | leaf (leaf : Leaf)
  | block (bracket : Bracket) (content : List Node)
  | function (name : Text) (arguments : List Node)

namespace Node

/-- Whether a node is whitespace. -/
def isWhitespace : Node → Bool
  | leaf (.whitespace _) => true
  | _ => false

/-- Whether a node is the given mark. -/
def isMark (text : Text) : Node → Bool
  | leaf (.mark t) => t == text
  | _ => false

/-- The content of a block in braces. -/
def braces? : Node → Option (List Node)
  | block .curly content => some content
  | _ => none

end Node

/-! ### Rules and declarations -/

/-- An at-rule: its keyword, what stands before its block, and the block if it has one. -/
structure AtRule where
  name : Text
  prelude : List Node
  body : Option (List Node)

/-- A part of a stylesheet; one that cannot be read comes with the reason. -/
inductive Rule where
  | qualified (prelude body : List Node)
  | atRule (rule : AtRule)
  | unreadable (reason : Text)

/-- A declaration, its value as written. -/
structure Declaration where
  name : Text
  value : List Node
  important : Bool

/-- A part of the body of a rule. -/
inductive BodyItem where
  | declaration (declaration : Declaration)
  | atRule (rule : AtRule)
  | unreadable

/-! ### Libraries -/

/-- What a library for CSS can do. -/
structure Library where
  /-- The rules of a text. -/
  stylesheet : Text → List Rule
  /-- The declarations and at-rules in the body of a rule. -/
  bodyItems : List Node → List BodyItem
  /-- The declarations and at-rules in the text of a body. -/
  bodyItemsOfText : Text → List BodyItem
  /-- The text of nodes one after another. -/
  write : List Node → Text
  /-- The text of an at-rule. -/
  writeRule : AtRule → Text

end TailwindUpgrade.Css
