/-
TailwindUpgrade/Literal/Entry.lean

The lenient reading of a container: its entries are cut apart without being understood, each value
being the source of an expression. A value that the strict reading refuses therefore does not keep
its neighbours from being read; and where the entries themselves cannot be cut apart any further,
those before that place are still there (`Entries`).
-/
import TailwindUpgrade.Literal.Key

namespace TailwindUpgrade.Literal

/-- The entries of a container, in order, up to its end or to the fault after which no more could be
cut off. -/
structure Entries (α : Type) where
  list : List α
  fault : Option Fault
  deriving DecidableEq

namespace Entries

variable {α : Type}

/-- No entries, because of a fault. -/
def stopped (f : Fault) : Entries α := ⟨[], some f⟩

/-- An entry before others, which begin `n` characters further on. -/
def cons (entry : α) (n : Nat) (others : Entries α) : Entries α :=
  ⟨entry :: others.list, others.fault.map (·.further n)⟩

end Entries

/-- Reads one entry of an object: its key and the source of its value. -/
def rawField (s : Text) : Reading (Text × Text) :=
  match head s with
  | .error f => .error f
  | .ok (.spread source, n) => .ok ((dots ++ source, source), n)
  | .ok (.shorthand name, n) => .ok ((name, name), n)
  | .ok (.keyed name, n) => ((expression (s.drop n)).map fun source => (name, source)).further n

/-- Reads one entry of an array: its source. -/
def rawItem (s : Text) : Reading Text :=
  if dots.isPrefixOf s then ((expression (s.drop 3)).map (dots ++ ·)).further 3
  else expression s

/-- Cuts entries apart up to a closing bracket, each by the reader `entry`. -/
def rawEntries {α : Type} (closer : CodePoint) (entry : Text → Reading α) :
    Text → Entries α
  | [] =>
    match entry [] with
    | .error f => .stopped f
    | .ok (a, _) => ⟨[a], some ⟨.expectedSeparator closer none, 0⟩⟩
  | c :: rest =>
    match peek (c :: rest) with
    | .error f => .stopped f
    | .ok (found, n) =>
      if found = some closer then ⟨[], none⟩
      else
        match (entry ((c :: rest).drop n)).further n with
        | .error f => .stopped f
        | .ok (a, k) =>
          match (separator closer ((c :: rest).drop k)).further k with
          | .error f => ⟨[a], some f⟩
          | .ok (false, _) => ⟨[a], none⟩
          | .ok (true, m) => .cons a (m + 1) (rawEntries closer entry (rest.drop m))
termination_by s => s.length
decreasing_by all_goals simp only [List.length_drop, List.length_cons]; omega

/-- The entries of a container whose opening bracket comes first. -/
def rawContainer {α : Type} (opener closer : CodePoint) (entry : Text → Reading α)
    (s : Text) : Entries α :=
  match expect opener s with
  | .error f => .stopped f
  | .ok ((), n) =>
    let entries := rawEntries closer entry (s.drop n)
    ⟨entries.list, entries.fault.map (·.further n)⟩

/-- The keys of an object, each with the source of its value. -/
def properties (text : Text) : Entries (Text × Text) :=
  rawContainer '{' '}' rawField text

/-- The sources of the elements of an array. -/
def elements (text : Text) : Entries Text := rawContainer '[' ']' rawItem text

end TailwindUpgrade.Literal
