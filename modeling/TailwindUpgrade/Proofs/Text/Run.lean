/-
TailwindUpgrade/Proofs/Text/Run.lean

Runs of characters of one class.  A longest run is found again when a character outside the class
follows it (`takeWhile_append_stop`), and that is all that the readers of identifiers and numbers
rely on.

The class that matters is that of the characters of keys written without quotes.  Blanks are not
among them, so layout ends such a key.
-/
import Mathlib.Data.List.TakeWhile
import TailwindUpgrade.Text.Blank
import TailwindUpgrade.Text.Digit
import TailwindUpgrade.Text.Word

namespace TailwindUpgrade.Text

/-! ### Longest runs -/

variable {p : CodePoint → Bool} {w s : Text}

theorem takeWhile_append_stop (hw : ∀ c ∈ w, p c = true) (hs : ∀ c ∈ s.head?, p c = false) :
    (w ++ s).takeWhile p = w := by
  rw [List.takeWhile_append_of_pos hw]
  cases s with
  | nil => simp
  | cons c s => rw [List.takeWhile_cons_of_neg (by simp [hs c rfl]), List.append_nil]

theorem dropWhile_append_stop (hw : ∀ c ∈ w, p c = true) (hs : ∀ c ∈ s.head?, p c = false) :
    (w ++ s).dropWhile p = s := by
  rw [List.dropWhile_append_of_pos hw]
  cases s with
  | nil => rfl
  | cons c s => rw [List.dropWhile_cons_of_neg (by simp [hs c rfl])]

/-! ### Characters of keys -/

/-- A character of a key that is written without quotes: of an identifier, or of a number. -/
def isKeyPart (c : CodePoint) : Bool := isIdentifierPart c || isDigit c || c == '.'

theorem isKeyPart_eq_false {c : CodePoint} :
    isKeyPart c = false ↔ isIdentifierPart c = false ∧ isDigit c = false ∧ c ≠ .char '.' := by
  simp [isKeyPart, and_assoc]

/-- The numbers of the blanks. -/
def blankNumbers : List Nat :=
  [0x09, 0x0a, 0x0b, 0x0c, 0x0d, 0x1c, 0x1d, 0x1e, 0x1f, 0x20, 0x85, 0xa0, 0x1680, 0x2000, 0x2001,
   0x2002, 0x2003, 0x2004, 0x2005, 0x2006, 0x2007, 0x2008, 0x2009, 0x200a, 0x2028, 0x2029, 0x202f,
   0x205f, 0x3000]

theorem toNat_mem_blankNumbers {c : CodePoint} (h : isBlank c = true) :
    c.toNat ∈ blankNumbers := by
  simp only [isBlank, Bool.or_eq_true, Bool.and_eq_true, decide_eq_true_eq, beq_iff_eq] at h
  simp only [blankNumbers, List.mem_cons, List.not_mem_nil, or_false]
  omega

/-- A blank is no character of a key. -/
theorem isKeyPart_of_isBlank {c : CodePoint} (h : isBlank c = true) : isKeyPart c = false := by
  have hall : ∀ n ∈ blankNumbers, isKeyPart (.ofNat n) = false := by decide +kernel
  rw [← CodePoint.ofNat_toNat c]
  exact hall _ (toNat_mem_blankNumbers h)

theorem toNat_lt_of_isIdentifierStart {c : CodePoint} (h : isIdentifierStart c = true) :
    c.toNat < 0x80 := by
  rcases c with c | n
  · simp only [isIdentifierStart, CodePoint.isAlpha, CodePoint.isIn, CodePoint.char?,
      Option.any_some, Bool.or_eq_true, beq_iff_eq, CodePoint.char.injEq] at h
    rcases h with (hletter | rfl) | rfl
    · have hranges : (decide (c.val ≥ 'A'.val ∧ c.val ≤ 'Z'.val) ||
          (c.val ≥ 'a'.val && c.val ≤ 'z'.val)) = true := hletter
      simp only [Bool.or_eq_true, Bool.and_eq_true, decide_eq_true_eq, ge_iff_le,
        UInt32.le_iff_toNat_le] at hranges
      change (0x41 ≤ c.toNat ∧ c.toNat ≤ 0x5a) ∨ (0x61 ≤ c.toNat ∧ c.toNat ≤ 0x7a) at hranges
      show c.toNat < 0x80
      omega
    · decide
    · decide
  · simp [isIdentifierStart, CodePoint.isAlpha, CodePoint.isIn, CodePoint.char?] at h

/-- What may begin an identifier may stand in a key, and is no digit. -/
theorem isIdentifierStart_spec {c : CodePoint} (h : isIdentifierStart c = true) :
    isKeyPart c = true ∧ isDigit c = false := by
  have hall : ∀ n < 0x80, isIdentifierStart (.ofNat n) = true →
      isKeyPart (.ofNat n) = true ∧ isDigit (.ofNat n) = false := by decide +kernel
  rw [← CodePoint.ofNat_toNat c] at h ⊢
  exact hall _ (CodePoint.ofNat_toNat c ▸ toNat_lt_of_isIdentifierStart h) h

end TailwindUpgrade.Text
