/-
TailwindUpgrade/Css/Lexeme.lean

CSS text cut into lexemes: tokens, and the brackets between which others stand. Comments are left
out. What begins at a character depends on that character and the text after it alone, never on the
brackets around it, so the cut is made before brackets are matched.

Each reader here gives what it read and how many characters it took; none of them fails.
-/
import TailwindUpgrade.Css.Node
import TailwindUpgrade.Literal.Layout
import TailwindUpgrade.Text.Digit
import TailwindUpgrade.Text.Search

namespace TailwindUpgrade.Css

/-! ### Characters -/

/-- The text as CSS sees it: line breaks are line feeds, and there is no NUL. -/
def preprocess : Text → Text
  | [] => []
  | .char '\r' :: .char '\n' :: rest => .char '\n' :: preprocess rest
  | c :: rest =>
    (if c = '\r' ∨ c = '\x0c' then .char '\n' else if c = '\x00' then .char '\ufffd' else c) ::
      preprocess rest

/-- White space inside CSS. -/
def isSpace (c : CodePoint) : Bool := c == ' ' || c == '\n' || c == '\t'

/-- A character that may begin a name. -/
def isNameStart (c : CodePoint) : Bool := c.isAlpha || c == '_' || 0x7f < c.toNat

/-- A character that may stand in a name. -/
def isNameChar (c : CodePoint) : Bool := isNameStart c || c.isDigit || c == '-'

/-- Whether a backslash before this text begins an escape: anything but a line feed follows. -/
def isEscaped (afterBackslash : Text) : Bool := afterBackslash.head? ≠ some (.char '\n')

/-- Whether an identifier begins at the front of a text. -/
def beginsIdent : Text → Bool
  | [] => false
  | c :: rest =>
    isNameStart c || (c == '\\' && isEscaped rest) ||
      (c == '-' && match rest with
        | [] => false
        | d :: more => isNameStart d || d == '-' || (d == '\\' && isEscaped more))

/-! ### Escapes, names and numbers -/

/-- The code point of a number given in an escape. -/
def escapedPoint (n : Nat) : CodePoint :=
  if n = 0 ∨ 0x10ffff < n then '\ufffd' else .ofNat n

/-- Reads what a backslash escapes: up to six hexadecimal digits with one white space after them, or
else the next character. -/
def escape : Text → CodePoint × Nat
  | [] => ('\ufffd', 0)
  | c :: rest =>
    let digits := ((c :: rest).take 6).takeWhile Text.isHex
    if digits = [] then (c, 1)
    else
      let after := (c :: rest).drop digits.length
      (escapedPoint (Text.hexNumber digits),
        if after.head?.any isSpace then digits.length + 1 else digits.length)

/-- Reads a name: name characters and escapes, as long as they go on. -/
def name : Text → Text × Nat
  | [] => ([], 0)
  | c :: rest =>
    if isNameChar c then
      let (value, n) := name rest
      (c :: value, n + 1)
    else if c = '\\' ∧ isEscaped rest then
      let (e, k) := escape rest
      let (value, n) := name (rest.drop k)
      (e :: value, n + k + 1)
    else ([], 0)
termination_by s => s.length
decreasing_by all_goals simp only [List.length_drop, List.length_cons]; omega

/-- The length of an exponent at the front of a text: the letter, a sign and digits. -/
def exponentLength : Text → Nat
  | e :: rest =>
    let signLength := if rest.head? = some (.char '+') ∨ rest.head? = some (.char '-') then 1 else 0
    let digits := (rest.drop signLength).takeWhile CodePoint.isDigit
    if (e = 'e' ∨ e = 'E') ∧ digits ≠ [] then 1 + signLength + digits.length else 0
  | [] => 0

/-- The length of the number at the front of a text, zero if there is none: a sign, digits with
perhaps a point before the last ones, and an exponent. -/
def numberLength (s : Text) : Nat :=
  let signLength := if s.head? = some (.char '+') ∨ s.head? = some (.char '-') then 1 else 0
  let body := s.drop signLength
  let whole := (body.takeWhile CodePoint.isDigit).length
  let fraction := match body.drop whole with
    | .char '.' :: rest => (rest.takeWhile CodePoint.isDigit).length
    | _ => 0
  let size := if fraction = 0 then whole else whole + 1 + fraction
  if size = 0 then 0
  else signLength + size + exponentLength (body.drop size)

/-- Reads a range of code points after its `U+`: up to six digits, of which the last ones may be
question marks for any digit; or two numbers with a dash between them. -/
def unicodeRange (s : Text) : (Nat × Nat) × Nat :=
  let digits := (s.take 6).takeWhile Text.isHex
  let wild := (((s.take 6).drop digits.length).takeWhile (· == .char '?')).length
  let first := Text.hexNumber digits
  if 0 < wild then
    let size := Nat.pow 16 wild
    ((first * size, first * size + (size - 1)), digits.length + wild)
  else
    match s.drop digits.length with
    | .char '-' :: rest =>
      let last := (rest.take 6).takeWhile Text.isHex
      if last = [] then ((first, first), digits.length)
      else ((first, Text.hexNumber last), digits.length + 1 + last.length)
    | _ => ((first, first), digits.length)

/-! ### Strings and URLs -/

/-- How a string or URL ends: at its closing character, at the end of the text, or where it turns
out to be none. -/
inductive Ending where
  | closed
  | cutOff
  | broken
  deriving DecidableEq

/-- Reads a string from after its quote. An escaped line feed is dropped; a bare one breaks it. -/
def quotedString (quote : CodePoint) : Text → (Text × Ending) × Nat
  | [] => (([], .cutOff), 0)
  | c :: rest =>
    if c = quote then (([], .closed), 1)
    else if c = '\\' then
      if rest = [] then (([], .cutOff), 1)
      else if rest.head? = some (.char '\n') then
        let (result, n) := quotedString quote (rest.drop 1)
        (result, n + 2)
      else
        let (e, k) := escape rest
        let ((value, ending), n) := quotedString quote (rest.drop k)
        ((e :: value, ending), n + k + 1)
    else if c = '\n' then (([], .broken), 0)
    else
      let ((value, ending), n) := quotedString quote rest
      ((c :: value, ending), n + 1)
termination_by s => s.length
decreasing_by all_goals simp only [List.length_drop, List.length_cons]; omega

/-- A character that may not stand bare in a URL. -/
def breaksUrl (c : CodePoint) : Bool :=
  let n := c.toNat
  c == '\"' || c == '\'' || c == '(' || (1 ≤ n && n ≤ 8) || n == 0x0b || (0x0e ≤ n && n ≤ 0x1f) ||
    n == 0x7f

/-- The length of what is left of a broken URL, through the next closing bracket that is not
escaped. -/
def brokenUrlLength : Text → Nat
  | [] => 0
  | .char '\\' :: .char ')' :: rest => brokenUrlLength rest + 2
  | c :: rest => if c = ')' then 1 else brokenUrlLength rest + 1

/-- Reads what may follow the white space in a URL: its closing bracket. -/
def urlEnd (s : Text) : Ending × Nat :=
  let blank := (s.takeWhile isSpace).length
  match s.drop blank with
  | [] => (.cutOff, blank)
  | c :: rest =>
    if c = ')' then (.closed, blank + 1) else (.broken, blank + brokenUrlLength (c :: rest))

/-- Reads the value of a URL without quotes, with its closing bracket. -/
def urlValue : Text → (Text × Ending) × Nat
  | [] => (([], .cutOff), 0)
  | c :: rest =>
    if c = ')' then (([], .closed), 1)
    else if isSpace c then
      let (ending, n) := urlEnd rest
      (([], ending), n + 1)
    else if c = '\\' ∧ isEscaped rest then
      let (e, k) := escape rest
      let ((value, ending), n) := urlValue (rest.drop k)
      ((e :: value, ending), n + k + 1)
    else if breaksUrl c then (([], .broken), brokenUrlLength rest + 1)
    else
      let ((value, ending), n) := urlValue rest
      ((c :: value, ending), n + 1)
termination_by s => s.length
decreasing_by all_goals simp only [List.length_drop, List.length_cons]; omega

/-- Reads a URL without quotes from after its opening bracket. -/
def url (s : Text) : Leaf × Nat :=
  let blank := (s.takeWhile isSpace).length
  let ((value, ending), n) := urlValue (s.drop blank)
  let leaf := match ending with
    | .closed => .url value true
    | .cutOff => .url value false
    | .broken => .damaged .badUrl
  (leaf, blank + n)

/-! ### Lexemes -/

/-- A token, or one of the brackets between which others stand. -/
inductive Lexeme where
  | leaf (leaf : Leaf)
  | opening (bracket : Bracket)
  | call (name : Text)
  | closing (bracket : Bracket)
  deriving DecidableEq

/-- Whether a name is `url`, in any case. -/
def isUrlName (name : Text) : Bool := name.map CodePoint.toLower == "url"

/-- Reads an identifier, a function with its opening bracket, or a URL. -/
def named (s : Text) : Lexeme × Nat :=
  let (value, n) := name s
  match s.drop n with
  | .char '(' :: rest =>
    let next := (rest.dropWhile isSpace).head?
    if isUrlName value ∧ next ≠ some (.char '\"') ∧ next ≠ some (.char '\'') then
      let (leaf, k) := url rest
      (.leaf leaf, n + 1 + k)
    else (.call value, n + 1)
  | _ => (.leaf (.ident value), n)

/-- Reads a number with what may follow it: a unit or a percent sign. `size` is its own length. -/
def numeric (s : Text) (size : Nat) : Leaf × Nat :=
  let source := s.take size
  let after := s.drop size
  if beginsIdent after then
    let (unit, n) := name after
    (.dimension source unit, size + n)
  else if after.head? = some (.char '%') then (.percentage source, size + 1)
  else (.number source, size)

/-- Reads a string from after its quote. -/
def quoted (quote : CodePoint) (s : Text) : Leaf × Nat :=
  let ((value, ending), n) := quotedString quote s
  let leaf := match ending with
    | .closed => .string value true
    | .cutOff => .string value false
    | .broken => .damaged .badString
  (leaf, n)

/-- The marks of more than one character that begin with `c`, the longest first. -/
def longMarks (c : CodePoint) : List Text :=
  if c = '<' then ["<!--"]
  else if c = '|' then ["||", "|="]
  else if c = '~' ∨ c = '^' ∨ c = '$' ∨ c = '*' then [[c, '=']]
  else []

/-- Reads a mark: one of those of several characters, or a single character. -/
def mark (c : CodePoint) (rest : Text) : Leaf × Nat :=
  match (longMarks c).find? (·.isPrefixOf (c :: rest)) with
  | some text => (.mark text, text.length)
  | none => (.mark [c], 1)

/-- Reads the lexeme that begins with the character `c`; a comment is none. The count is that of the
characters taken after `c`. -/
def lexeme (c : CodePoint) (rest : Text) : Option Lexeme × Nat :=
  let s := c :: rest
  if isSpace c then
    let more := rest.takeWhile isSpace
    (some (.leaf (.whitespace (c :: more))), more.length)
  else if (c = 'U' ∨ c = 'u') ∧ rest.head? = some (.char '+') ∧
      (rest.drop 1).head?.any (fun d => Text.isHex d || d == '?') then
    let ((first, last), n) := unicodeRange (rest.drop 1)
    (some (.leaf (.unicodeRange first last)), n + 1)
  else if Text.beginsWith "-->" s then (some (.leaf (.mark "-->")), 2)
  else if beginsIdent s then
    let (found, n) := named s
    (some found, n - 1)
  else if numberLength s ≠ 0 then
    let (leaf, n) := numeric s (numberLength s)
    (some (.leaf leaf), n - 1)
  else if c = '@' ∧ beginsIdent rest then
    let (value, n) := name rest
    (some (.leaf (.atKeyword value)), n)
  else if c = '#' ∧ (rest.head?.any isNameChar ∨ beginsIdent rest) then
    let (value, n) := name rest
    (some (.leaf (.hash value (beginsIdent rest))), n)
  else
    match Bracket.ofOpener? c, Bracket.ofCloser? c with
    | some bracket, _ => (some (.opening bracket), 0)
    | _, some bracket => (some (.closing bracket), 0)
    | _, _ =>
      if c = '\"' ∨ c = '\'' then
        let (leaf, n) := quoted c rest
        (some (.leaf leaf), n)
      else if Text.beginsWith "/*" s then
        match Literal.blockLength? (rest.drop 1) with
        | some n => (none, n + 1)
        | none => (none, rest.length)
      else
        let (leaf, n) := mark c rest
        (some (.leaf leaf), n - 1)

/-- All lexemes of a preprocessed text, in order. -/
def lexemes : Text → List Lexeme
  | [] => []
  | c :: rest =>
    let (found, n) := lexeme c rest
    found.toList ++ lexemes (rest.drop n)
termination_by s => s.length
decreasing_by simp only [List.length_drop, List.length_cons]; omega

end TailwindUpgrade.Css
