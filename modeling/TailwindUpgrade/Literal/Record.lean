/-
TailwindUpgrade/Literal/Record.lean

Records: named fields in the order in which the names were first written. Setting a field that is
there replaces its value and keeps its place; setting a new one appends it. The names in a record
made by `ofList`, or from such a record by `set` and `erase`, are distinct.
-/
import TailwindUpgrade.Text.CodePoint

namespace TailwindUpgrade

/-- Named fields, in the order in which their names were first written. -/
abbrev Record (α : Type) := List (Text × α)

namespace Record

variable {α : Type}

/-- The value of a field. -/
def get? (name : Text) (r : Record α) : Option α := r.lookup name

/-- Writes a field: in its place if the name is there, else at the end. -/
def set (name : Text) (value : α) : Record α → Record α
  | [] => [(name, value)]
  | (other, v) :: rest =>
    if other = name then (name, value) :: rest else (other, v) :: set name value rest

/-- The record without a field. -/
def erase (name : Text) (r : Record α) : Record α := r.filter fun field => field.1 ≠ name

/-- Writes fields one after another. -/
def setAll (r : Record α) (fields : List (Text × α)) : Record α :=
  fields.foldl (fun r field => set field.1 field.2 r) r

/-- The record that results from writing fields one after another. -/
def ofList (fields : List (Text × α)) : Record α := setAll [] fields

/-- The names of the fields, in order. -/
def names (r : Record α) : List Text := r.map (·.1)

@[simp] theorem get?_set_self (name : Text) (value : α) (r : Record α) :
    get? name (set name value r) = some value := by
  induction r with
  | nil => simp [set, get?]
  | cons field rest ih =>
    obtain ⟨n, v⟩ := field
    by_cases h : n = name
    · simp [set, get?, h]
    · have hbeq : (name == n) = false := by simpa using Ne.symm h
      simpa [set, get?, h, List.lookup_cons, hbeq] using ih

theorem get?_set_of_ne {name other : Text} (h : other ≠ name) (value : α) (r : Record α) :
    get? other (set name value r) = get? other r := by
  have hother : (other == name) = false := by simpa using h
  induction r with
  | nil => simp [set, get?, List.lookup_cons, hother]
  | cons field rest ih =>
    obtain ⟨n, v⟩ := field
    by_cases hn : n = name
    · subst hn
      simp [set, get?, List.lookup_cons, hother]
    · simp only [get?] at ih
      simp [set, get?, hn, List.lookup_cons, ih]

/-- Setting a field adds its name at the end, unless the name is there. -/
theorem names_set (name : Text) (value : α) (r : Record α) :
    names (set name value r) = if name ∈ names r then names r else names r ++ [name] := by
  induction r with
  | nil => simp [set, names]
  | cons field rest ih =>
    obtain ⟨n, v⟩ := field
    by_cases hn : n = name
    · simp [set, names, hn]
    · have hnames : names (set name value ((n, v) :: rest)) = n :: names (set name value rest) := by
        simp [set, names, hn]
      have hmem : name ∈ names ((n, v) :: rest) ↔ name ∈ names rest := by
        simp [names, Ne.symm hn]
      by_cases hm : name ∈ names rest
      · rw [hnames, ih, if_pos hm, if_pos (hmem.2 hm)]
        rfl
      · rw [hnames, ih, if_neg hm, if_neg fun h => hm (hmem.1 h)]
        rfl

end Record

end TailwindUpgrade
