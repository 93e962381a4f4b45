/-
TailwindUpgrade/Proofs/Sheet/Section.lean

Where the lines of a stylesheet go.  The sections are gathered by a run over the lines that keeps
the current section; here the same is said of each line by itself.  `Current before s` says which
section is current behind some lines, by the last one among them that switches, and `Placed` where
each line of a stylesheet stands in the sections, by its number.

Main result: every line is in one place of one section, unless it is dropped for its directive, and
a section that is written as text and cut again is a section of custom rules (`lines_placed`).
-/
import Mathlib.Data.List.Induction
import Mathlib.Tactic.SplitIfs
import TailwindUpgrade.Proofs.Text.Line
import TailwindUpgrade.Sheet.Section

namespace TailwindUpgrade.Sheet

/-! ### Directives -/

/-- A line that begins with an import directive, blanks aside. -/
def IsImport (line : Text) : Prop := ("@import" : Text) <+: Text.stripStart line

/-- A line that holds one of the directives of a section. -/
def Holds (line : Text) (s : Section) : Prop := ∃ marker ∈ s.markers, marker <:+: line

/-- A line that holds a directive of any section. -/
def HoldsAny (line : Text) : Prop := ∃ s, Holds line s

/-- The section of the directives in a line: the first layer that it holds a directive of. -/
inductive Marks (line : Text) : Section → Prop
  | base : Holds line .base → Marks line .base
  | components : ¬ Holds line .base → Holds line .components → Marks line .components
  | utilities :
      ¬ Holds line .base → ¬ Holds line .components → Holds line .utilities → Marks line .utilities

/-- A line that switches to a section for the lines after it. -/
def Switches (line : Text) : Prop := ¬ IsImport line ∧ HoldsAny line

/-- The section that is current behind some lines: that of the last one that switches, and the one
of custom rules if none does. -/
inductive Current : List Text → Section → Prop
  | start {before : List Text} : (∀ line ∈ before, ¬ Switches line) → Current before .custom
  | switched {before after : List Text} {line : Text} {s : Section} :
      ¬ IsImport line → Marks line s → (∀ other ∈ after, ¬ Switches other) →
      Current (before ++ line :: after) s

variable {line : Text} {lines : List Text} {s : Section}

theorem isImport_iff : isImport line = true ↔ IsImport line := List.isPrefixOf_iff_prefix

theorem holds_iff :
    (s.markers.any fun marker => Text.occursIn marker line) = true ↔ Holds line s := by
  simp only [Holds, List.any_eq_true, Text.occursIn_iff]

instance (line : Text) (s : Section) : Decidable (Holds line s) := decidable_of_iff _ holds_iff

/-- The layers are looked for one after another. -/
theorem ofMarker?_eq (line : Text) :
    Section.ofMarker? line =
      if Holds line .base then some .base
      else if Holds line .components then some .components
      else if Holds line .utilities then some .utilities
      else none := by
  have hholds : (fun s : Section => s.markers.any fun marker => Text.occursIn marker line) =
      fun s => decide (Holds line s) := by
    funext s
    rw [Bool.eq_iff_iff, holds_iff, decide_eq_true_iff]
  rw [Section.ofMarker?, hholds]
  split_ifs with hbase hcomponents hutilities
  · simp [hbase]
  · simp [hbase, hcomponents]
  · simp [hbase, hcomponents, hutilities]
  · simp [hbase, hcomponents, hutilities]

theorem ofMarker?_eq_some_iff : Section.ofMarker? line = some s ↔ Marks line s := by
  rw [ofMarker?_eq]
  constructor
  · intro h
    split_ifs at h with hbase hcomponents hutilities
    · obtain rfl := Option.some.inj h
      exact .base hbase
    · obtain rfl := Option.some.inj h
      exact .components hbase hcomponents
    · obtain rfl := Option.some.inj h
      exact .utilities hbase hcomponents hutilities
  · intro h
    cases h with
    | base hbase => rw [if_pos hbase]
    | components hbase hcomponents => rw [if_neg hbase, if_pos hcomponents]
    | utilities hbase hcomponents hutilities =>
      rw [if_neg hbase, if_neg hcomponents, if_pos hutilities]

/-- Only the layers have directives. -/
theorem Holds.isLayer (h : Holds line s) : s = .base ∨ s = .components ∨ s = .utilities := by
  obtain ⟨marker, hmarker, -⟩ := h
  cases s with
  | imports => cases hmarker
  | base => exact .inl rfl
  | components => exact .inr (.inl rfl)
  | utilities => exact .inr (.inr rfl)
  | custom => cases hmarker

theorem ofMarker?_eq_none_iff : Section.ofMarker? line = none ↔ ¬ HoldsAny line := by
  rw [ofMarker?_eq]
  constructor
  · rintro h ⟨s, hs⟩
    split_ifs at h with hbase hcomponents hutilities
    rcases hs.isLayer with rfl | rfl | rfl
    · exact hbase hs
    · exact hcomponents hs
    · exact hutilities hs
  · intro h
    rw [if_neg fun hs => h ⟨_, hs⟩, if_neg fun hs => h ⟨_, hs⟩, if_neg fun hs => h ⟨_, hs⟩]

/-! ### The current section -/

/-- The section that is current behind a line, if it was `current` before it. -/
def next (current : Section) (line : Text) : Section :=
  if isImport line then current else (Section.ofMarker? line).getD current

/-- The section that is current behind some lines. -/
def currentAfter (before : List Text) : Section := before.foldl next .custom

theorem next_of_not_switches (h : ¬ Switches line) (current : Section) :
    next current line = current := by
  rw [next]
  split
  · rfl
  · next himport =>
    have hnone : ¬ HoldsAny line := fun hany => h ⟨mt isImport_iff.2 himport, hany⟩
    rw [ofMarker?_eq_none_iff.2 hnone]
    rfl

theorem next_of_marks (himport : ¬ IsImport line) (h : Marks line s) (current : Section) :
    next current line = s := by
  rw [next, if_neg (mt isImport_iff.1 himport), ofMarker?_eq_some_iff.2 h]
  rfl

theorem foldl_next_of_not_switches (h : ∀ line ∈ lines, ¬ Switches line) (current : Section) :
    lines.foldl next current = current := by
  induction lines with
  | nil => rfl
  | cons line lines ih =>
    rw [List.foldl_cons, next_of_not_switches (h line (by simp))]
    exact ih fun other hother => h other (by simp [hother])

/-- Behind a line that does not switch, the section is the one before it. -/
theorem Current.concat (h : Current lines s) (hline : ¬ Switches line) :
    Current (lines ++ [line]) s := by
  cases h with
  | start hlines =>
    refine .start fun other hother => ?_
    rcases List.mem_append.1 hother with hother | hother
    · exact hlines other hother
    · obtain rfl := List.mem_singleton.1 hother
      exact hline
  | @switched before after _ _ himport hmarks hafter =>
    rw [List.append_assoc, List.cons_append]
    refine .switched himport hmarks fun other hother => ?_
    rcases List.mem_append.1 hother with hother | hother
    · exact hafter other hother
    · obtain rfl := List.mem_singleton.1 hother
      exact hline

/-- The run over the lines keeps the section of the last line that switches. -/
theorem current_iff : Current lines s ↔ currentAfter lines = s := by
  constructor
  · intro h
    rw [currentAfter]
    cases h with
    | start h => exact foldl_next_of_not_switches h _
    | switched himport hmarks hafter =>
      rw [List.foldl_append, List.foldl_cons, next_of_marks himport hmarks,
        foldl_next_of_not_switches hafter]
  · rintro rfl
    induction lines using List.reverseRecOn with
    | nil => exact .start (by simp)
    | append_singleton lines line ih =>
      rw [currentAfter, List.foldl_append, List.foldl_cons, List.foldl_nil, ← currentAfter]
      by_cases hswitches : Switches line
      · obtain ⟨himport, hany⟩ := hswitches
        obtain ⟨s, hs⟩ := Option.ne_none_iff_exists'.1 (mt ofMarker?_eq_none_iff.1 (not_not.2 hany))
        have hmarks := ofMarker?_eq_some_iff.1 hs
        rw [next_of_marks himport hmarks]
        exact .switched himport hmarks (by simp)
      · rw [next_of_not_switches hswitches]
        exact ih.concat hswitches

theorem Current.ne_imports (h : Current lines s) : s ≠ .imports := by
  cases h with
  | start => decide
  | switched _ hmarks => cases hmarks <;> decide

/-! ### Tagged lines -/

/-- Where a line goes that stands where a section is current; a directive goes nowhere. -/
def destination (current : Section) (line : Text) : Option Section :=
  if isImport line then some .imports
  else if (Section.ofMarker? line).isSome then none
  else some current

theorem tagFrom_cons (current : Section) (line : Text) (rest : List Text) :
    tagFrom current (line :: rest) =
      (destination current line).toList.map (·, line) ++ tagFrom (next current line) rest := by
  rw [tagFrom, destination, next]
  split
  · rfl
  · cases Section.ofMarker? line <;> rfl

theorem tagFrom_append (current : Section) (lines rest : List Text) :
    tagFrom current (lines ++ rest) =
      tagFrom current lines ++ tagFrom (lines.foldl next current) rest := by
  induction lines generalizing current with
  | nil => rfl
  | cons line lines ih =>
    rw [List.cons_append, tagFrom_cons, tagFrom_cons, ih, List.append_assoc, List.foldl_cons]

/-- A line goes to the imports if it is one, nowhere if it holds a directive, and else to the
current section. -/
theorem destination_eq_some_iff {current : Section} :
    destination current line = some s ↔
      (IsImport line ∧ s = .imports) ∨ (¬ IsImport line ∧ ¬ HoldsAny line ∧ current = s) := by
  rw [destination, ← isImport_iff, ← ofMarker?_eq_none_iff, ← Option.not_isSome_iff_eq_none]
  split_ifs with himport hmarker
  · simp only [himport, true_and, not_true, false_and, or_false, Option.some.injEq]
    exact eq_comm
  · simp [himport, hmarker]
  · simp [himport, hmarker]

theorem tagged_append (s : Section) (xs ys : List (Section × Text)) :
    Sections.tagged s (xs ++ ys) = Sections.tagged s xs ++ Sections.tagged s ys := by
  rw [Sections.tagged, List.filter_append, List.map_append]
  rfl

/-- The lines of a section grow by a line that goes to it. -/
theorem tagged_concat (lines : List Text) (line : Text) (s : Section) :
    Sections.tagged s (tagFrom .custom (lines ++ [line])) =
      Sections.tagged s (tagFrom .custom lines) ++
        if destination (currentAfter lines) line = some s then [line] else [] := by
  rw [tagFrom_append, tagged_append, tagFrom_cons, ← currentAfter]
  congr 1
  cases destination (currentAfter lines) line with
  | none => rfl
  | some t => by_cases h : t = s <;> simp [Sections.tagged, tagFrom, h]

theorem tagFrom_sublist (current : Section) (lines : List Text) :
    ((tagFrom current lines).map Prod.snd).Sublist lines := by
  induction lines generalizing current with
  | nil => exact .slnil
  | cons line lines ih =>
    rw [tagFrom_cons]
    cases destination current line with
    | none => exact (ih _).cons line
    | some s => exact (ih _).cons_cons line

theorem next_ne_imports {current : Section} (h : current ≠ .imports) (line : Text) :
    next current line ≠ .imports := by
  rw [next]
  split
  · exact h
  · cases hmarker : Section.ofMarker? line with
    | none => exact h
    | some s =>
      rw [Option.getD_some]
      cases ofMarker?_eq_some_iff.1 hmarker <;> decide

/-- The imports are the lines that begin with an import directive, wherever they stand. -/
theorem tagged_imports {current : Section} (h : current ≠ .imports) (lines : List Text) :
    Sections.tagged .imports (tagFrom current lines) = lines.filter isImport := by
  induction lines generalizing current with
  | nil => rfl
  | cons line lines ih =>
    rw [tagFrom_cons, tagged_append, ih (next_ne_imports h line), List.filter_cons, destination]
    split
    · rfl
    · split
      · rfl
      · simp [Sections.tagged, h]

theorem imports_ofText (css : Text) :
    (Sections.ofText css).imports = (Text.lines css).filter isImport :=
  tagged_imports (by decide) _

/-! ### The numbers of the lines -/

/-- The numbers of the lines that go to a section. -/
def numbers (lines : List Text) (s : Section) : List Nat :=
  (List.range lines.length).filter fun i =>
    lines[i]?.bind (destination (currentAfter (lines.take i))) = some s

theorem mem_numbers {i : Nat} :
    i ∈ numbers lines s ↔
      ∃ line, lines[i]? = some line ∧ destination (currentAfter (lines.take i)) line = some s := by
  rw [numbers, List.mem_filter, List.mem_range, decide_eq_true_iff, Option.bind_eq_some_iff]
  constructor
  · rintro ⟨-, h⟩
    exact h
  · rintro ⟨line, hline, h⟩
    exact ⟨(List.getElem?_eq_some_iff.1 hline).1, line, hline, h⟩

theorem numbers_concat (lines : List Text) (line : Text) (s : Section) :
    numbers (lines ++ [line]) s =
      numbers lines s ++
        if destination (currentAfter lines) line = some s then [lines.length] else [] := by
  have hlast : (lines ++ [line])[lines.length]? = some line := List.getElem?_concat_length
  rw [numbers, List.length_append, List.length_singleton, List.range_succ, List.filter_append]
  refine congrArg₂ _ (List.filter_congr fun i hi => ?_) ?_
  · -- the lines before the last one stand behind the same lines as before
    have hi : i < lines.length := List.mem_range.1 hi
    rw [List.getElem?_append_left hi, List.take_append_of_le_length (by omega)]
  · simp only [List.filter_cons, hlast, List.take_left, Option.bind_some, List.filter_nil,
      decide_eq_true_iff]

/-- The lines of a section are those of its numbers. -/
theorem tagged_eq (lines : List Text) (s : Section) :
    (Sections.tagged s (tagFrom .custom lines)).map some = (numbers lines s).map (lines[·]?) := by
  induction lines using List.reverseRecOn with
  | nil => rfl
  | append_singleton lines line ih =>
    have hbefore : (numbers lines s).map ((lines ++ [line])[·]?) =
        (numbers lines s).map (lines[·]?) := by
      apply List.map_congr_left
      intro i hi
      obtain ⟨line, hline, -⟩ := mem_numbers.1 hi
      exact List.getElem?_append_left (List.getElem?_eq_some_iff.1 hline).1
    rw [tagged_concat, numbers_concat, List.map_append, List.map_append, hbefore, ih]
    congr 1
    split
    · simp
    · rfl

/-- Where the lines of a stylesheet stand in its sections, `numbers s` being the numbers of the
lines in the section `s`. -/
structure Placed (lines : List Text) (sections : Sections) (numbers : Section → List Nat) :
    Prop where
  increasing : ∀ s, (numbers s).Pairwise (· < ·)
  taken : ∀ s, (sections.get s).map some = (numbers s).map (lines[·]?)
  single : ∀ i s t, i ∈ numbers s → i ∈ numbers t → s = t
  imports : ∀ i line, lines[i]? = some line → (i ∈ numbers .imports ↔ IsImport line)
  dropped : ∀ i line, lines[i]? = some line → ¬ IsImport line →
    ((∀ s, i ∉ numbers s) ↔ HoldsAny line)
  current : ∀ i line, lines[i]? = some line → ¬ IsImport line → ¬ HoldsAny line →
    ∀ s, i ∈ numbers s ↔ Current (lines.take i) s

theorem get_ofText (css : Text) (s : Section) :
    (Sections.ofText css).get s = Sections.tagged s (tagLines css) := by
  cases s <;> rfl

/-- Nothing but an import goes to the imports, and so nothing else goes anywhere but where the last
directive sends it. -/
theorem mem_numbers_of_not_import {i : Nat} (hline : lines[i]? = some line)
    (himport : ¬ IsImport line) :
    i ∈ numbers lines s ↔ ¬ HoldsAny line ∧ Current (lines.take i) s := by
  rw [mem_numbers]
  simp [hline, destination_eq_some_iff, himport, current_iff]

theorem placed_numbers (css : Text) :
    Placed (Text.lines css) (Sections.ofText css) (numbers (Text.lines css)) where
  increasing s := List.pairwise_lt_range.filter _
  taken s := by
    rw [get_ofText]
    exact tagged_eq _ s
  single i s t hs ht := by
    obtain ⟨line, hline, hs⟩ := mem_numbers.1 hs
    obtain ⟨other, hother, ht⟩ := mem_numbers.1 ht
    obtain rfl := Option.some.inj (hline.symm.trans hother)
    exact Option.some.inj (hs.symm.trans ht)
  imports i line hline := by
    have hcurrent : currentAfter ((Text.lines css).take i) ≠ .imports :=
      (current_iff.2 rfl).ne_imports
    rw [mem_numbers]
    simp [hline, destination_eq_some_iff, hcurrent]
  dropped i line hline himport := by
    simp only [mem_numbers_of_not_import hline himport, not_and]
    constructor
    · intro h
      by_contra hany
      exact h _ hany (current_iff.2 rfl)
    · intro hany s hnot
      exact absurd hany hnot
  current i line hline himport hany s := by
    rw [mem_numbers_of_not_import hline himport]
    exact and_iff_right hany

/-! ### Sections as text -/

/-- Lines that are neither imports nor hold a directive are custom rules. -/
theorem tagFrom_plain (current : Section) (h : ∀ line ∈ lines, ¬ IsImport line ∧ ¬ HoldsAny line) :
    tagFrom current lines = lines.map (current, ·) := by
  induction lines with
  | nil => rfl
  | cons line lines ih =>
    obtain ⟨himport, hany⟩ := h line (by simp)
    have hgoes : destination current line = some current :=
      destination_eq_some_iff.2 (.inr ⟨himport, hany, rfl⟩)
    rw [tagFrom_cons, hgoes, next_of_not_switches fun hs => hany hs.2,
      ih fun other hother => h other (by simp [hother])]
    rfl

theorem ofTagged_custom (lines : List Text) :
    Sections.ofTagged (lines.map (Section.custom, ·)) = ⟨[], [], [], [], lines⟩ := by
  have hcustom : Sections.tagged .custom (lines.map (Section.custom, ·)) = lines := by
    simp [Sections.tagged, List.filter_map, Function.comp_def]
  have hother : ∀ s, s ≠ .custom → Sections.tagged s (lines.map (Section.custom, ·)) = [] := by
    intro s hs
    simp [Sections.tagged, List.filter_map, Function.comp_def, Ne.symm hs]
  simp [Sections.ofTagged, hcustom, hother]

/-- The lines of a section other than the imports are lines of the stylesheet, and none of them is
an import or holds a directive. -/
theorem plain_of_mem_get {css : Text} (hs : s ≠ .imports) (h : line ∈ (Sections.ofText css).get s) :
    line ∈ Text.lines css ∧ ¬ IsImport line ∧ ¬ HoldsAny line := by
  have hsome : some line ∈ (numbers (Text.lines css) s).map ((Text.lines css)[·]?) := by
    rw [← (placed_numbers css).taken s]
    exact List.mem_map_of_mem h
  obtain ⟨i, hi, hline⟩ := List.mem_map.1 hsome
  have himport : ¬ IsImport line := by
    intro himport
    have hmem := ((placed_numbers css).imports i line hline).2 himport
    exact hs ((placed_numbers css).single i _ _ hi hmem)
  exact ⟨List.mem_of_getElem? hline, himport, ((mem_numbers_of_not_import hline himport).1 hi).1⟩

/-- A section that is written as text has its lines again, but for an empty one at its end. -/
theorem get_eq_lines_text {css : Text} (hs : s ≠ .imports) :
    (Sections.ofText css).get s = Text.lines ((Sections.ofText css).text s) ∨
      (Sections.ofText css).get s = Text.lines ((Sections.ofText css).text s) ++ [[]] :=
  Text.lines_joinLines fun _ hline => Text.unbroken_of_mem_lines (plain_of_mem_get hs hline).1

/-- All lines of a section that is written as text are custom rules. -/
theorem ofText_text {css : Text} (hs : s ≠ .imports) :
    Sections.ofText ((Sections.ofText css).text s) =
      ⟨[], [], [], [], Text.lines ((Sections.ofText css).text s)⟩ := by
  have hmem : ∀ line ∈ Text.lines ((Sections.ofText css).text s),
      line ∈ (Sections.ofText css).get s := by
    intro line hline
    rcases get_eq_lines_text hs with h | h
    · rw [h]
      exact hline
    · rw [h]
      exact List.mem_append_left _ hline
  have hplain := fun line hline => (plain_of_mem_get hs (hmem line hline)).2
  rw [Sections.ofText, tagLines, tagFrom_plain _ hplain, ofTagged_custom]

/-- **Cutting a stylesheet into sections conserves its lines.**  Each line stands in the sections
where its own directives and the last directive before it send it, and nowhere else; each section
has its lines in the order of the stylesheet; and each section but the imports, written as text and
cut again, has its lines among the custom rules, except perhaps for an empty one at its end. -/
theorem lines_placed (css : Text) :
    (∃ numbers, Placed (Text.lines css) (Sections.ofText css) numbers) ∧
      (∀ s, ((Sections.ofText css).get s).Sublist (Text.lines css)) ∧
      ∀ s, s ≠ .imports → ∃ kept,
        ((Sections.ofText css).get s = kept ∨ (Sections.ofText css).get s = kept ++ [[]]) ∧
        Sections.ofText ((Sections.ofText css).text s) = ⟨[], [], [], [], kept⟩ := by
  refine ⟨⟨_, placed_numbers css⟩, fun s => ?_, fun s hs => ?_⟩
  · rw [get_ofText]
    exact (List.filter_sublist.map _).trans (tagFrom_sublist _ _)
  · exact ⟨_, get_eq_lines_text hs, ofText_text hs⟩

/-- A directive in an import that does not count, two directives in one line, and empty lines behind
breaks of several kinds. -/
theorem lines_placed_mixed :
    Sections.ofText
        "a\r\n @import 'x' /* @tailwind base */\n@tailwind utilities @tailwind base\nb\u2028\n" =
      ⟨[" @import 'x' /* @tailwind base */"], ["b", ""], [], [], ["a"]⟩ ∧
    ∃ kept,
      ((["b", ""] : List Text) = kept ∨ (["b", ""] : List Text) = kept ++ [[]]) ∧
      Sections.ofText (Text.joinLines ["b", ""]) = ⟨[], [], [], [], kept⟩ := by
  have hsections : Sections.ofText
      "a\r\n @import 'x' /* @tailwind base */\n@tailwind utilities @tailwind base\nb\u2028\n" =
        ⟨[" @import 'x' /* @tailwind base */"], ["b", ""], [], [], ["a"]⟩ := by decide +kernel
  have hplaced := (lines_placed
    "a\r\n @import 'x' /* @tailwind base */\n@tailwind utilities @tailwind base\nb\u2028\n").2.2
      .base (by decide)
  rw [hsections] at hplaced
  exact ⟨hsections, hplaced⟩

end TailwindUpgrade.Sheet
