/-
TailwindUpgrade/Css/Write.lean

Writing component values. Between two tokens that would be read as one, an empty comment is written;
which pairs these are is decided by `needsGap`. After a backslash that stands by itself, a line feed
keeps it from escaping what follows. Names, strings and URLs are written with the escapes they need,
strings always between double quotes.
-/
import TailwindUpgrade.Css.Node
import TailwindUpgrade.Text.Digit

namespace TailwindUpgrade.Css

/-! ### Names and values -/

/-- The hexadecimal digits of a number in upper case. -/
def upperHex (n : Nat) : Text := (Text.hexDigits n).map CodePoint.toUpper

/-- The escape of a line break, which is by its code point and a space; nothing for other
characters. -/
def breakEscape? (c : CodePoint) : Option Text :=
  if c = '\n' then some "\\A "
  else if c = '\r' then some "\\D "
  else if c = '\x0c' then some "\\C "
  else none

/-- A character anywhere in a name. -/
def writeNameChar (c : CodePoint) : Text :=
  if c.isAlphanum ∨ c = '-' ∨ c = '_' ∨ 0x7f < c.toNat then [c]
  else (breakEscape? c).getD ['\\', c]

/-- A name that need not be an identifier. -/
def writeName (name : Text) : Text := name.flatMap writeNameChar

/-- The first character of an identifier. -/
def writeIdentStart (c : CodePoint) : Text :=
  if c.isAlpha ∨ c = '_' ∨ 0x7f < c.toNat then [c]
  else if c.isDigit then "\\" ++ upperHex c.toNat ++ " "
  else (breakEscape? c).getD ['\\', c]

/-- An identifier. -/
def writeIdent : Text → Text
  | [.char '-'] => "\\-"
  | .char '-' :: .char '-' :: rest => "--" ++ writeName rest
  | .char '-' :: c :: rest => "-" ++ writeIdentStart c ++ writeName rest
  | c :: rest => writeIdentStart c ++ writeName rest
  | [] => []

/-- A character inside a string. -/
def writeStringChar (c : CodePoint) : Text :=
  if c = '\"' ∨ c = '\\' then ['\\', c] else (breakEscape? c).getD [c]

/-- A character inside a URL without quotes. -/
def writeUrlChar (c : CodePoint) : Text :=
  if c = '\'' ∨ c = '\"' ∨ c = '\\' ∨ c = '(' ∨ c = ')' ∨ c = ' ' then ['\\', c]
  else if c = '\t' then "\\9 "
  else (breakEscape? c).getD [c]

/-- The unit of a dimension. One that could be read as an exponent has its first letter escaped. -/
def writeUnit (unit : Text) : Text :=
  match unit with
  | [c] => if c = 'e' ∨ c = 'E' then "\\65 " else writeIdent unit
  | c :: .char '-' :: rest =>
    if c = 'e' ∨ c = 'E' then "\\65 -" ++ writeName rest else writeIdent unit
  | _ => writeIdent unit

/-- A range of code points. -/
def writeRange (first last : Nat) : Text :=
  if last = first then "U+" ++ upperHex first
  else "U+" ++ upperHex first ++ "-" ++ upperHex last

namespace Leaf

/-- The text of a token. -/
def write : Leaf → Text
  | whitespace text => text
  | mark text => text
  | ident name => writeIdent name
  | atKeyword name => "@" ++ writeIdent name
  | hash name identifier => "#" ++ if identifier then writeIdent name else writeName name
  | string value closed =>
    "\"" ++ value.flatMap writeStringChar ++ if closed then "\"" else ""
  | url value closed =>
    "url(" ++ value.flatMap writeUrlChar ++ if closed then ")" else ""
  | unicodeRange first last => writeRange first last
  | number source => source
  | percentage source => source ++ "%"
  | dimension source unit => source ++ writeUnit unit
  | damaged .badString => "\"[bad string]\n"
  | damaged .badUrl => "url([bad url])"
  | damaged (.unmatched bracket) => [bracket.closer]

end Leaf

/-! ### Neighbours -/

/-- What counts about a node when another stands beside it. Marks are told apart by their text. -/
inductive Kind where
  | ident
  | atKeyword
  | hash
  | dimension
  | number
  | percentage
  | function
  | url
  | unicodeRange
  | newline
  | roundBlock
  | mark (text : Text)
  | other
  deriving DecidableEq

/-- The kind of a node. Whitespace counts only if it begins with a line feed. -/
def Node.kind : Node → Kind
  | .leaf (.whitespace text) => if text.head? = some (.char '\n') then .newline else .other
  | .leaf (.mark text) => .mark text
  | .leaf (.ident _) => .ident
  | .leaf (.atKeyword _) => .atKeyword
  | .leaf (.hash ..) => .hash
  | .leaf (.string ..) => .other
  | .leaf (.url ..) => .url
  | .leaf (.unicodeRange ..) => .unicodeRange
  | .leaf (.number _) => .number
  | .leaf (.percentage _) => .percentage
  | .leaf (.dimension ..) => .dimension
  | .leaf (.damaged _) => .other
  | .block .round _ => .roundBlock
  | .block .square _ | .block .curly _ => .other
  | .function .. => .function

namespace Kind

/-- A mark of one character. -/
def char (c : Char) : Kind := .mark [.char c]

/-- The tokens that begin with a name. -/
def names : List Kind := [ident, function, url]

/-- The tokens that begin with a number. -/
def numbers : List Kind := [number, percentage, dimension]

/-- The tokens that end with a name. -/
def named : List Kind := [ident, atKeyword, hash, dimension]

/-- The marks that an equals sign would join. -/
def matchers : List Kind := ['$', '*', '^', '~', '|'].map char

/-- The kinds that would run together with a node of a kind that stands before them. -/
def joined (left : Kind) : List Kind :=
  (if left ∈ named ∨ left ∈ [char '#', char '-', number] then
    names ++ numbers ++ [unicodeRange] else []) ++
  (if left ∈ named then [char '-', mark "-->"] else []) ++
  (if left ∈ [unicodeRange, char '.', char '+'] then numbers else []) ++
  (if left = char '@' then names ++ [unicodeRange, char '-'] else []) ++
  (if left = unicodeRange then [ident, function, char '?'] else []) ++
  (if left ∈ matchers then [char '='] else []) ++
  (if left = ident then [roundBlock] else []) ++
  (if left = char '|' then [char '|'] else []) ++
  if left = char '/' then [char '*'] else []

end Kind

/-- Whether two neighbours would be read as one without an empty comment between them. -/
def needsGap (left right : Kind) : Bool := right ∈ left.joined

/-- What is written between two neighbours. -/
def gap (left right : Kind) : Text :=
  if needsGap left right then "/**/"
  else if left = .char '\\' ∧ right ≠ .newline then "\n"
  else []

/-! ### Nodes -/

/-- Whether the arguments of a function end in a string that the end of the text cut off, perhaps
inside functions that stand last in them. -/
def endsCutOff : List Node → Bool
  | [] => false
  | [.leaf (.string _ closed)] => !closed
  | [.function _ arguments] => endsCutOff arguments
  | _ :: rest => endsCutOff rest

mutual

/-- The text of a node. -/
def Node.write : Node → Text
  | .leaf leaf => leaf.write
  | .block bracket content => bracket.opener :: writeAll none content ++ [bracket.closer]
  | .function name arguments =>
    writeIdent name ++ "(" ++ writeAll none arguments ++ if endsCutOff arguments then "" else ")"

/-- The text of nodes one after another, the kind of the node before them being given. -/
def writeAll (before : Option Kind) : List Node → Text
  | [] => []
  | node :: rest =>
    (match before with
      | none => []
      | some left => gap left node.kind) ++ node.write ++ writeAll (some node.kind) rest

end

/-- The text of nodes one after another. -/
def write (nodes : List Node) : Text := writeAll none nodes

end TailwindUpgrade.Css
