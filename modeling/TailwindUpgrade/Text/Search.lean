/-
TailwindUpgrade/Text/Search.lean

Looking for patterns in a text. A `Matcher` reads a pattern off the front of a text and gives what
it found together with the rest; `pieces` runs a matcher over a whole text from left to right and
cuts it into single characters and matches. What can be asked of a pattern is read off the pieces:
every match (`allMatches`), the first one (`firstMatch`), and the text with every match replaced
(`replaceMatches`). A match begins where the one before it ended, so matches never overlap.
-/
import TailwindUpgrade.Text.CodePoint

namespace TailwindUpgrade.Text

/-- Reads something off the front of a text: what it is, and the text after it. -/
abbrev Matcher (α : Type) := Text → Option (α × Text)

/-- A text cut up by a matcher: a character that begins no match, or a match. -/
inductive Piece (α : Type) where
  | plain (c : CodePoint)
  | found (a : α)

/-- Cuts a text into characters and matches, from left to right. -/
def pieces {α : Type} (m : Matcher α) : Text → List (Piece α)
  | [] => []
  | c :: rest =>
    match m (c :: rest) with
    | none => .plain c :: pieces m rest
    | some (a, after) => .found a :: pieces m (rest.drop (rest.length - after.length))
termination_by s => s.length
decreasing_by all_goals simp only [List.length_drop, List.length_cons]; omega

/-- Everything the matcher finds, in order. -/
def allMatches {α : Type} (m : Matcher α) (s : Text) : List α :=
  (pieces m s).filterMap fun
    | .plain _ => none
    | .found a => some a

/-- The text with every match replaced by what `f` makes of it. -/
def replaceMatches {α : Type} (m : Matcher α) (f : α → Text) (s : Text) : Text :=
  (pieces m s).flatMap fun
    | .plain c => [c]
    | .found a => f a

/-- The leftmost match, with the text after it. -/
def firstMatch {α : Type} (m : Matcher α) : Matcher α
  | [] => m []
  | c :: rest =>
    match m (c :: rest) with
    | some hit => some hit
    | none => firstMatch m rest

/-- The text after a word that stands at its front. -/
def after? : Text → Text → Option Text
  | [], s => some s
  | w :: word, c :: s => if w = c then after? word s else none
  | _ :: _, [] => none

/-- What comes after a word is the text that the word was put in front of. -/
theorem after?_eq_some_iff {word s rest : Text} :
    after? word s = some rest ↔ s = word ++ rest := by
  induction word generalizing s with
  | nil => simp [after?]
  | cons w word ih =>
    cases s with
    | nil => simp [after?]
    | cons c s =>
      by_cases h : w = c
      · simp [after?, h, ih]
      · simp [after?, h, Ne.symm h]

/-- Whether a word stands somewhere in a text. -/
def occursIn (word : Text) : Text → Bool
  | [] => word.isEmpty
  | c :: rest => word.isPrefixOf (c :: rest) || occursIn word rest

/-- A word occurs in a text exactly when the text is that word between two others. -/
theorem occursIn_iff {word s : Text} : occursIn word s = true ↔ word <:+: s := by
  induction s with
  | nil => cases word <;> simp [occursIn]
  | cons c rest ih => simp [occursIn, ih, List.infix_cons_iff]

/-- Whether a text begins with a word. -/
def beginsWith (word s : Text) : Bool := word.isPrefixOf s

end TailwindUpgrade.Text
