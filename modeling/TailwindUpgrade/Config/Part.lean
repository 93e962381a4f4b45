/-
TailwindUpgrade/Config/Part.lean

Three ways to read the source of a part of a configuration, by how much is lost if it is malformed.
`strict` needs a literal and takes null instead of a malformed one, with a notice; `valueOrSource`
keeps a malformed one as its source; and `entries` cuts an object into its entries, reads each one
by itself, and keeps those before the place where that is no longer possible.

All three are prepared for faults of form alone.  Any other fault in a literal, which is a numeral
of too many digits, breaks the reading off (`Attempt`), and with it that of all that the part is in.
What was said until then has been said.
-/
import TailwindUpgrade.Config.Notice
import TailwindUpgrade.Literal.Entry
import TailwindUpgrade.Literal.Read
import TailwindUpgrade.Reported

namespace TailwindUpgrade.Config

/-- What comes of reading a part: what it is read as, or the fault that broke the reading off, with
the notices until then. -/
abbrev Attempt (α : Type) := Reported Notice (Except Literal.Fault α)

namespace Attempt

variable {α β : Type}

/-- A reading that is not broken off. -/
def whole (found : Reported Notice α) : Attempt α := Reported.map .ok found

/-- Changes what was read. -/
def map (f : α → β) (attempt : Attempt α) : Attempt β := Reported.map (Except.map f) attempt

/-- Goes on from what was read, unless the reading was broken off. -/
def andThen (attempt : Attempt α) (next : α → Attempt β) : Attempt β :=
  Reported.andThen attempt fun
    | .ok a => next a
    | .error fault => .silent (.error fault)

@[simp] theorem silent_andThen (a : α) (next : α → Attempt β) :
    Attempt.andThen (.silent (.ok a)) next = next a := rfl

variable {attempt : Attempt α} {next : α → Attempt β} {b : β} {fault : Literal.Fault}

theorem map_eq_ok {f : α → β} :
    (map f attempt).value = .ok b ↔ ∃ a, attempt.value = .ok a ∧ f a = b := by
  obtain ⟨value, notices⟩ := attempt
  cases value <;> simp [map, Reported.map, Except.map]

theorem map_eq_error {f : α → β} :
    (map f attempt).value = .error fault ↔ attempt.value = .error fault := by
  obtain ⟨value, notices⟩ := attempt
  cases value <;> simp [map, Reported.map, Except.map]

/-- One reading after another gives something if both do. -/
theorem andThen_eq_ok :
    (andThen attempt next).value = .ok b ↔ ∃ a, attempt.value = .ok a ∧ (next a).value = .ok b := by
  obtain ⟨value, notices⟩ := attempt
  cases value <;> simp [andThen, Reported.andThen, Reported.silent]

/-- One reading after another is broken off if either is. -/
theorem andThen_eq_error :
    (andThen attempt next).value = .error fault ↔
      attempt.value = .error fault ∨ ∃ a, attempt.value = .ok a ∧ (next a).value = .error fault := by
  obtain ⟨value, notices⟩ := attempt
  cases value <;> simp [andThen, Reported.andThen, Reported.silent]

end Attempt

/-! ### Literals -/

/-- Reads a literal; a malformed one gives a notice under the given label and counts as null. -/
def strict (label raw : Text) : Attempt Value :=
  match Value.read raw with
  | .ok value => .silent (.ok value)
  | .error fault =>
    if fault.problem.isSyntax then ⟨.ok .null, [.unparsable label fault]⟩
    else .silent (.error fault)

/-- Reads a literal; a malformed one is kept as an expression. -/
def valueOrSource (raw : Text) : Except Literal.Fault Value :=
  match Value.read raw with
  | .ok value => .ok value
  | .error fault => if fault.problem.isSyntax then .ok (.expr raw) else .error fault

/-! ### Entries -/

/-- The entries of an object and the sources of their values. -/
def properties (label raw : Text) : Reported Notice (List (Text × Text)) :=
  let found := Literal.properties raw
  ⟨found.list, found.fault.toList.map (.entriesCutShort label)⟩

/-- Reads entries one after another, each from its key and the source of its value, until one is
broken off. An entry may be left out. -/
def gather (read : Text → Text → Attempt (Option Value)) :
    List (Text × Text) → Reported Notice (Literal.Entries (Text × Value))
  | [] => .silent ⟨[], none⟩
  | (key, source) :: rest =>
    Reported.andThen (read key source) fun
      | .error fault => .silent (.stopped fault)
      | .ok given => (gather read rest).map fun others =>
        ⟨(given.map fun value => (key, value)).toList ++ others.list, others.fault⟩

/-- The record of entries that were read; none if one of them was broken off. Keys that are written
again keep their place and take the later value. -/
def settled (found : Literal.Entries (Text × Value)) : Except Literal.Fault (Record Value) :=
  match found.fault with
  | none => .ok (Record.ofList found.list)
  | some fault => .error fault

/-- Reads the entries of an object. -/
def entries (label raw : Text) (read : Text → Text → Attempt (Option Value)) :
    Attempt (Record Value) :=
  ((properties label raw).andThen (gather read)).map settled

end TailwindUpgrade.Config
