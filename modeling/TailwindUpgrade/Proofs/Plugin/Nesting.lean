/-
TailwindUpgrade/Proofs/Plugin/Nesting.lean

Lines that stand in braces, and how they are read back.  The last character of a line says whether
it opens a block, closes one, or declares something.  Lines are well nested (`WellNested`) if no
block is closed that is not open, none is left open, and each line is indented by the blocks that
are open around it.

Reading goes from line to line and keeps the blocks that are open, the innermost first (`readLine`).
A line has to be indented by as many blocks as are open around it, and what stands between the
indentation and the end of the line is taken as it is.

Main result: what can be read back is well nested (`wellNested_of_readBack`).
-/
import TailwindUpgrade.Plugin.Typography
import TailwindUpgrade.Text.Search

namespace TailwindUpgrade.Plugin

variable {line text : Text} {lines before : List Text}

/-! ### Well-nested lines -/

/-- What a line is there for. -/
inductive LineKind where
  | opening
  | closing
  | declaration
  deriving DecidableEq

/-- What a line is there for, by its last character. -/
def lineKind? (line : Text) : Option LineKind :=
  match line.getLast? with
  | some (.char '\x7b') => some .opening
  | some (.char '\x7d') => some .closing
  | some (.char ';') => some .declaration
  | _ => none

/-- How many lines open a block. -/
def openings (lines : List Text) : Nat := lines.countP fun line => lineKind? line = some .opening

/-- How many lines close a block. -/
def closings (lines : List Text) : Nat := lines.countP fun line => lineKind? line = some .closing

/-- The lines are well nested, in a block themselves.  Around a line there are the blocks that were
opened before it and that are not closed by the end of it. -/
structure WellNested (lines : List Text) : Prop where
  kinds : ∀ line ∈ lines, lineKind? line ≠ none
  openings_eq : openings lines = closings lines
  closings_le : ∀ before, before <+: lines → closings before ≤ openings before
  indented : ∀ before line, before ++ [line] <+: lines →
    indent (1 + (openings before - closings (before ++ [line]))) <+: line

/-! ### Reading lines back -/

/-- A part of a block. -/
inductive Part where
  | declaration (text : Text)
  | block (selector : Text) (parts : List Part)

/-- What a line ends with. -/
def LineKind.ending : LineKind → Text
  | opening => " \x7b"
  | closing => "\x7d"
  | declaration => ";"

/-- What stands on a line between a margin and an ending. -/
def between? (margin ending line : Text) : Option Text :=
  (Text.after? margin line).bind fun rest =>
    (Text.after? ending.reverse rest.reverse).map List.reverse

/-- What has been read: the blocks that are open, the innermost first, each with its selector and
the parts before it, and the parts of the innermost one so far. -/
structure Nesting where
  outer : List (Text × List Part)
  parts : List Part

namespace Nesting

/-- How many blocks are open. -/
def depth (nesting : Nesting) : Nat := nesting.outer.length

/-- How many blocks are open around the next line. The block that a line closes is not around it. -/
def around (nesting : Nesting) : LineKind → Nat
  | .closing => nesting.depth - 1
  | .opening | .declaration => nesting.depth

/-- Goes on with the text of a line; a line that closes a block has none. -/
def add : Nesting → LineKind → Text → Option Nesting
  | ⟨outer, parts⟩, .opening, selector => some ⟨(selector, parts) :: outer, []⟩
  | ⟨outer, parts⟩, .declaration, text => some ⟨outer, parts ++ [.declaration text]⟩
  | ⟨(selector, before) :: outer, parts⟩, .closing, [] =>
    some ⟨outer, before ++ [.block selector parts]⟩
  | _, .closing, _ => none

/-- The parts that have been read, if no block is left open. -/
def finish : Nesting → Option (List Part)
  | ⟨[], parts⟩ => some parts
  | ⟨_ :: _, _⟩ => none

end Nesting

variable {s s' : Nesting} {kind : LineKind}

/-- Reads one line. -/
def readLine (s : Nesting) (line : Text) : Option Nesting :=
  (lineKind? line).bind fun kind =>
    (between? (indent (1 + s.around kind)) kind.ending line).bind (s.add kind)

/-- Reads lines, one after another. -/
def readLines (s : Nesting) (lines : List Text) : Option Nesting := lines.foldlM readLine s

/-- Reads the lines of a block back. -/
def readBack (lines : List Text) : Option (List Part) :=
  (readLines ⟨[], []⟩ lines).bind Nesting.finish

theorem between?_eq_some_iff {margin ending : Text} :
    between? margin ending line = some text ↔ line = margin ++ text ++ ending := by
  simp only [between?, Option.bind_eq_some_iff, Option.map_eq_some_iff, Text.after?_eq_some_iff]
  constructor
  · rintro ⟨rest, rfl, text', hrest, rfl⟩
    rw [List.append_assoc, ← List.reverse_reverse rest, hrest, List.reverse_append,
      List.reverse_reverse]
  · rintro rfl
    exact ⟨text ++ ending, List.append_assoc .., text.reverse, List.reverse_append,
      List.reverse_reverse text⟩

theorem lineKind?_append (front : Text) (kind : LineKind) :
    lineKind? (front ++ kind.ending) = some kind := by
  cases kind <;> simp [lineKind?, LineKind.ending, Text.ofString]

/-- What it takes for a line to be read. -/
theorem readLine_eq_some_iff :
    readLine s line = some s' ↔ ∃ kind text, lineKind? line = some kind ∧
      line = indent (1 + s.around kind) ++ text ++ kind.ending ∧ s.add kind text = some s' := by
  simp only [readLine, Option.bind_eq_some_iff, between?_eq_some_iff, exists_and_left]

/-- A line that is written as it has to be is read. -/
theorem readLine_append (s : Nesting) (kind : LineKind) (text : Text) :
    readLine s (indent (1 + s.around kind) ++ text ++ kind.ending) = s.add kind text := by
  rw [readLine, lineKind?_append, Option.bind_some, between?_eq_some_iff.mpr rfl, Option.bind_some]

theorem readLines_cons (s : Nesting) (line : Text) (lines : List Text) :
    readLines s (line :: lines) = (readLine s line).bind (readLines · lines) :=
  List.foldlM_cons

theorem readLines_append (s : Nesting) (lines lines' : List Text) :
    readLines s (lines ++ lines') = (readLines s lines).bind (readLines · lines') :=
  List.foldlM_append

/-- A declaration is read as one part. -/
theorem readLines_declaration (s : Nesting) (text : Text) :
    readLines s [indent (1 + s.depth) ++ text ++ LineKind.declaration.ending] =
      some ⟨s.outer, s.parts ++ [.declaration text]⟩ := by
  have hline : readLine s (indent (1 + s.depth) ++ text ++ LineKind.declaration.ending) =
      some ⟨s.outer, s.parts ++ [.declaration text]⟩ := readLine_append s .declaration text
  rw [readLines_cons, hline]
  rfl

/-- A block is read as one part, if its lines are read as its parts. -/
theorem readLines_block {selector : Text} {parts : List Part}
    (h : readLines ⟨(selector, s.parts) :: s.outer, []⟩ lines =
      some ⟨(selector, s.parts) :: s.outer, parts⟩) :
    readLines s (Text.block (indent (1 + s.depth)) selector lines) =
      some ⟨s.outer, s.parts ++ [.block selector parts]⟩ := by
  have hopening : readLine s (indent (1 + s.depth) ++ selector ++ LineKind.opening.ending) =
      some ⟨(selector, s.parts) :: s.outer, []⟩ := readLine_append s .opening selector
  have hclosing : readLine ⟨(selector, s.parts) :: s.outer, parts⟩
      (indent (1 + s.depth) ++ [] ++ LineKind.closing.ending) =
        some ⟨s.outer, s.parts ++ [.block selector parts]⟩ :=
    readLine_append ⟨(selector, s.parts) :: s.outer, parts⟩ .closing []
  rw [List.append_nil] at hclosing
  show readLines s ((_ ++ LineKind.opening.ending) :: (lines ++ [_ ++ LineKind.closing.ending])) = _
  rw [readLines_cons, hopening, Option.bind_some, readLines_append, h, Option.bind_some,
    readLines_cons, hclosing]
  rfl

/-! ### What is read is well nested -/

/-- A line opens a block or closes one, or as many are open behind it as before. -/
theorem Nesting.depth_of_add (h : s.add kind text = some s') :
    s'.depth + (if kind = .closing then 1 else 0) =
      s.depth + (if kind = .opening then 1 else 0) := by
  obtain ⟨outer, parts⟩ := s
  cases kind with
  | opening =>
    obtain rfl := Option.some.inj h
    rfl
  | declaration =>
    obtain rfl := Option.some.inj h
    rfl
  | closing =>
    cases outer with
    | nil => cases h
    | cons block outer =>
      cases text with
      | nil =>
        obtain rfl := Option.some.inj h
        rfl
      | cons c text => cases h

theorem openings_append (lines lines' : List Text) :
    openings (lines ++ lines') = openings lines + openings lines' := List.countP_append

theorem closings_append (lines lines' : List Text) :
    closings (lines ++ lines') = closings lines + closings lines' := List.countP_append

theorem openings_singleton (h : lineKind? line = some kind) :
    openings [line] = if kind = .opening then 1 else 0 := by
  rw [openings, List.countP_singleton, h]
  simp

theorem closings_singleton (h : lineKind? line = some kind) :
    closings [line] = if kind = .closing then 1 else 0 := by
  rw [closings, List.countP_singleton, h]
  simp

theorem Nesting.around_eq (s : Nesting) (h : lineKind? line = some kind) :
    s.around kind = s.depth - closings [line] := by
  rw [closings_singleton h]
  cases kind <;> rfl

/-- One line changes how many blocks are open by what it opens and closes. -/
theorem depth_of_readLine (h : readLine s line = some s') :
    s'.depth + closings [line] = s.depth + openings [line] := by
  obtain ⟨kind, text, hkind, -, hadd⟩ := readLine_eq_some_iff.mp h
  rw [closings_singleton hkind, openings_singleton hkind]
  exact Nesting.depth_of_add hadd

/-- Lines change how many blocks are open by what they open and close. -/
theorem depth_of_readLines (h : readLines s lines = some s') :
    s'.depth + closings lines = s.depth + openings lines := by
  induction lines generalizing s with
  | nil =>
    obtain rfl := Option.some.inj h
    rfl
  | cons line lines ih =>
    obtain ⟨mid, hline, hlines⟩ := Option.bind_eq_some_iff.mp h
    have hfirst := depth_of_readLine hline
    have hrest := ih hlines
    rw [← List.singleton_append, openings_append, closings_append]
    omega

/-- What is open when a front of the lines has been read is what the front opens and does not
close. -/
theorem exists_front (h : readLines ⟨[], []⟩ lines = some s) (hbefore : before <+: lines) :
    ∃ mid, readLines ⟨[], []⟩ before = some mid ∧
      mid.depth + closings before = openings before := by
  obtain ⟨after, rfl⟩ := hbefore
  rw [readLines_append] at h
  obtain ⟨mid, hmid, -⟩ := Option.bind_eq_some_iff.mp h
  have hnone : (⟨[], []⟩ : Nesting).depth = 0 := rfl
  have hdepth := depth_of_readLines hmid
  rw [hnone, Nat.zero_add] at hdepth
  exact ⟨mid, hmid, hdepth⟩

/-- Each line is indented by what is open around it and has an ending. -/
theorem exists_line (h : readLines ⟨[], []⟩ lines = some s) (hline : before ++ [line] <+: lines) :
    ∃ kind text, lineKind? line = some kind ∧
      line = indent (1 + (openings before - closings (before ++ [line]))) ++ text ++
        kind.ending := by
  obtain ⟨after, hafter, -⟩ := exists_front h hline
  obtain ⟨mid, hmid, hdepth⟩ := exists_front h ((List.prefix_append before [line]).trans hline)
  rw [readLines_append, hmid, Option.bind_some] at hafter
  obtain ⟨_, hstep, -⟩ := Option.bind_eq_some_iff.mp hafter
  obtain ⟨kind, text, hkind, htext, -⟩ := readLine_eq_some_iff.mp hstep
  -- a block that the line itself closes is not around it
  have haround : mid.around kind = openings before - closings (before ++ [line]) := by
    rw [mid.around_eq hkind, closings_append]
    omega
  rw [haround] at htext
  exact ⟨kind, text, hkind, htext⟩

/-- Lines that can be read back are well nested. -/
theorem wellNested_of_readBack {parts : List Part} (h : readBack lines = some parts) :
    WellNested lines := by
  obtain ⟨s, hread, hfinish⟩ := Option.bind_eq_some_iff.mp h
  constructor
  case kinds =>
    intro line hline
    obtain ⟨before, after, rfl⟩ := List.append_of_mem hline
    have hfront : before ++ [line] <+: before ++ line :: after :=
      ⟨after, List.append_assoc before [line] after⟩
    obtain ⟨kind, -, hkind, -⟩ := exists_line hread hfront
    rw [hkind]
    exact Option.some_ne_none kind
  case openings_eq =>
    obtain ⟨outer, parts'⟩ := s
    cases outer with
    | nil =>
      obtain ⟨mid, hmid, hdepth⟩ := exists_front hread (List.prefix_refl lines)
      obtain rfl : mid = ⟨[], parts'⟩ := Option.some.inj (hmid.symm.trans hread)
      rw [← hdepth]
      exact Nat.zero_add (closings lines)
    | cons block outer => cases hfinish
  case closings_le =>
    intro before hbefore
    obtain ⟨mid, -, hdepth⟩ := exists_front hread hbefore
    exact hdepth ▸ Nat.le_add_left (closings before) mid.depth
  case indented =>
    intro before line hline
    obtain ⟨kind, text, -, htext⟩ := exists_line hread hline
    rw [List.append_assoc] at htext
    exact ⟨text ++ kind.ending, htext.symm⟩

end TailwindUpgrade.Plugin
