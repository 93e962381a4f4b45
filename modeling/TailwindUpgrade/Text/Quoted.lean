/-
TailwindUpgrade/Text/Quoted.lean

Texts between quotes, as JSON and as messages write them.

A JSON string is in ASCII. Between double quotes, a double quote and a backslash stand after a
backslash, five controls have short escapes, and the other controls and every code point outside
ASCII are written as `\uXXXX` for each of their UTF-16 units, so one above U+FFFF takes two.

A message uses single quotes, unless the text holds a single quote and no double quote. A backslash
and the quote in use are written after a backslash; line feed, carriage return and tab have short
escapes; any other code point that is not printable is written by its number, in two, four or eight
hexadecimal digits.
-/
import TailwindUpgrade.Text.Digit
import TailwindUpgrade.Text.Printable

namespace TailwindUpgrade.Text

/-! ### JSON -/

/-- The UTF-16 units of a code point: itself, or a high and a low surrogate. -/
def units16 (c : CodePoint) : List Nat :=
  let n := c.toNat
  if n < 0x10000 then [n] else [0xd800 + (n - 0x10000) / 0x400, 0xdc00 + (n - 0x10000) % 0x400]

/-- The escape of a UTF-16 unit. -/
def unitEscape (unit : Nat) : Text := "\\u" ++ hexPadded 4 unit

/-- One code point of a JSON string. -/
def jsonChar (c : CodePoint) : Text :=
  if c = '\"' ∨ c = '\\' then ['\\', c]
  else if c = '\n' then "\\n"
  else if c = '\r' then "\\r"
  else if c = '\t' then "\\t"
  else if c = '\x08' then "\\b"
  else if c = '\x0c' then "\\f"
  else if 0x20 ≤ c.toNat ∧ c.toNat < 0x7f then [c]
  else (units16 c).flatMap unitEscape

/-- A text as a JSON string. -/
def jsonString (s : Text) : Text := "\"" ++ s.flatMap jsonChar ++ "\""

/-! ### Messages -/

/-- One code point of a quoted text, `quote` being the quote in use. -/
def quotedChar (quote c : CodePoint) : Text :=
  if c = quote ∨ c = '\\' then ['\\', c]
  else if c = '\n' then "\\n"
  else if c = '\r' then "\\r"
  else if c = '\t' then "\\t"
  else if isPrintable c then [c]
  else if c.toNat < 0x100 then "\\x" ++ hexPadded 2 c.toNat
  else if c.toNat < 0x10000 then "\\u" ++ hexPadded 4 c.toNat
  else "\\U" ++ hexPadded 8 c.toNat

/-- The quote that a text is shown in. -/
def quoteFor (s : Text) : CodePoint :=
  if s.contains '\'' ∧ ¬ s.contains '\"' then '\"' else '\''

/-- A text between quotes, with escapes for what cannot stand there as itself. -/
def quoted (s : Text) : Text :=
  let quote := quoteFor s
  quote :: s.flatMap (quotedChar quote) ++ [quote]

end TailwindUpgrade.Text
