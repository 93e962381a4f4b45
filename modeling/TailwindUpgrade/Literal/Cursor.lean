/-
TailwindUpgrade/Literal/Cursor.lean

A place in a text. Running a reader from a place moves the place to where the reader ended; a fault
is reported at its position in the whole text and leaves the place as it was.
-/
import TailwindUpgrade.Literal.Fault

namespace TailwindUpgrade.Literal

/-- A text and the number of its characters that lie behind. -/
structure Cursor where
  text : Text
  position : Nat

namespace Cursor

/-- The beginning of a text. -/
def start (text : Text) : Cursor := ⟨text, 0⟩

/-- The text that lies ahead. -/
def ahead (c : Cursor) : Text := c.text.drop c.position

/-- Runs a reader on the text that lies ahead. -/
def run {α : Type} (read : Text → Reading α) (c : Cursor) : Except Fault (α × Cursor) :=
  match read c.ahead with
  | .error f => .error (f.further c.position)
  | .ok (a, n) => .ok (a, ⟨c.text, c.position + n⟩)

/-- A place moves by what its reader takes. -/
theorem run_eq_ok_iff {α : Type} {read : Text → Reading α} {c c' : Cursor} {a : α} :
    c.run read = .ok (a, c') ↔
      ∃ n, read c.ahead = .ok (a, n) ∧ c' = ⟨c.text, c.position + n⟩ := by
  rw [run]
  rcases read c.ahead with f | ⟨b, n⟩
  · simp
  · constructor
    · intro h
      obtain ⟨rfl, rfl⟩ := Prod.mk.inj (Except.ok.inj h)
      exact ⟨n, rfl, rfl⟩
    · rintro ⟨n, h, rfl⟩
      obtain ⟨rfl, rfl⟩ := Prod.mk.inj (Except.ok.inj h)
      rfl

end Cursor

end TailwindUpgrade.Literal
