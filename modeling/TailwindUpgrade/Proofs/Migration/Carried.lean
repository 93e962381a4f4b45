/-
TailwindUpgrade/Proofs/Migration/Carried.lean

The rules that a stylesheet has outside of the layers, and those of its utilities layer, are carried
over to the end of the new stylesheet.  Of each of these two sections the blank lines at its ends
are left out, and every line between them is there, in order, with its references to colours
upgraded (`carriedWhole_part`).

The parts before them end with an empty line.  What is trimmed off the end of the stylesheet is the
empty line behind the last part, and no more, since the line before it is not empty
(`stylesheetText_ending`).

Main result: the new stylesheet ends with these two sections, whatever stands before them
(`merge_ends`).
-/
import TailwindUpgrade.Proofs.Migration.Reconversion
import TailwindUpgrade.Proofs.Text.Trim
import TailwindUpgrade.Proofs.Theme.ColorReference

namespace TailwindUpgrade.Migration

open Text (AllBlank)

variable {lib : Css.Library} {lines : List Text}

/-! ### One section -/

/-- What a section is carried over as, under a title: nothing, if all of its lines are blank; else
the title, and every line from the first to the last one that is not blank, upgraded. -/
inductive CarriedWhole (title : Text) : List Text → List Text → Prop where
  | nothing {lines : List Text} : (∀ line ∈ lines, AllBlank line) → CarriedWhole title lines []
  | whole {before kept after : List Text} :
    (∀ line ∈ before, AllBlank line) → (∀ line ∈ after, AllBlank line) →
      (∃ first ∈ kept.head?, ¬AllBlank first) → (∃ last ∈ kept.getLast?, ¬AllBlank last) →
      CarriedWhole title (before ++ (kept ++ after))
        (("/* " ++ title ++ " */") :: kept.map Theme.upgradeColors)

theorem isBlankLine_iff {line : Text} : isBlankLine line = true ↔ AllBlank line :=
  List.all_eq_true

theorem trimBlankLines_eq (lines : List Text) :
    trimBlankLines lines = (lines.dropWhile isBlankLine).rdropWhile isBlankLine := rfl

/-- Blank lines are trimmed off both ends. -/
theorem exists_trimBlankLines (lines : List Text) :
    ∃ before after, lines = before ++ (trimBlankLines lines ++ after) ∧
      (∀ line ∈ before, AllBlank line) ∧ (∀ line ∈ after, AllBlank line) := by
  refine ⟨lines.takeWhile isBlankLine, (lines.dropWhile isBlankLine).rtakeWhile isBlankLine,
    ?_, ?_, ?_⟩
  · rw [trimBlankLines_eq, List.rdropWhile_append_rtakeWhile, List.takeWhile_append_dropWhile]
  · intro line hline
    exact isBlankLine_iff.1 (List.mem_takeWhile_imp hline)
  · intro line hline
    exact isBlankLine_iff.1 (List.mem_rtakeWhile_imp hline)

theorem not_allBlank_getLast (h : trimBlankLines lines ≠ []) :
    ∃ last ∈ (trimBlankLines lines).getLast?, ¬AllBlank last := by
  refine ⟨(trimBlankLines lines).getLast h, List.getLast?_eq_some_getLast h, ?_⟩
  rw [← isBlankLine_iff]
  exact List.rdropWhile_last_not isBlankLine (lines.dropWhile isBlankLine) h

theorem not_allBlank_head (h : trimBlankLines lines ≠ []) :
    ∃ first ∈ (trimBlankLines lines).head?, ¬AllBlank first := by
  obtain ⟨first, others, hkept⟩ := List.exists_cons_of_ne_nil h
  refine ⟨first, by rw [hkept]; rfl, ?_⟩
  -- trimming the end leaves the beginning as it is
  obtain ⟨after, hprefix⟩ : trimBlankLines lines <+: lines.dropWhile isBlankLine :=
    List.rdropWhile_prefix _ _
  rw [hkept, List.cons_append] at hprefix
  have hnot := List.head?_dropWhile_not isBlankLine lines
  rw [← hprefix, List.head?_cons] at hnot
  rw [← isBlankLine_iff, hnot]
  exact Bool.false_ne_true

/-- The part of a new stylesheet that a section is carried over to. -/
def part (title : Text) (lines : List Text) : List Text :=
  if carriedLines lines = [] then [] else ("/* " ++ title ++ " */") :: carriedLines lines

/-- **A section is carried over whole.** -/
theorem carriedWhole_part (title : Text) (lines : List Text) :
    CarriedWhole title lines (part title lines) := by
  obtain ⟨before, after, hlines, hbefore, hafter⟩ := exists_trimBlankLines lines
  rw [part, carriedLines]
  by_cases hkept : trimBlankLines lines = []
  · rw [hkept, List.map_nil, if_pos rfl]
    refine .nothing ?_
    rw [hlines, hkept]
    intro line hline
    rcases List.mem_append.1 hline with hline | hline
    · exact hbefore line hline
    · exact hafter line hline
  · rw [if_neg (by simpa using hkept)]
    have hwhole : CarriedWhole title (before ++ (trimBlankLines lines ++ after)) _ :=
      .whole hbefore hafter (not_allBlank_head hkept) (not_allBlank_getLast hkept)
    rw [← hlines] at hwhole
    exact hwhole

/-- The last line of such a part is not empty, and stays a line. -/
theorem last_of_part (title : Text) (hlines : ∀ line ∈ lines, Text.Unbroken line) {last : Text}
    (h : last ∈ (part title lines).getLast?) : last ≠ [] ∧ Text.Unbroken last := by
  rw [part] at h
  split at h
  · cases h
  · next hcarried =>
    have hkept : trimBlankLines lines ≠ [] := by
      intro hnil
      rw [carriedLines, hnil] at hcarried
      exact hcarried rfl
    obtain ⟨written, hwritten, hblank⟩ := not_allBlank_getLast hkept
    obtain rfl : Theme.upgradeColors written = last := by
      rw [List.getLast?_cons_of_ne_nil hcarried, carriedLines, List.getLast?_map,
        Option.mem_def.1 hwritten] at h
      exact Option.some.inj h
    obtain ⟨before, after, hsplit, -, -⟩ := exists_trimBlankLines lines
    have hmem : written ∈ lines := by
      rw [hsplit]
      exact List.mem_append_right _ (List.mem_append_left _ (List.mem_of_getLast? hwritten))
    refine ⟨Theme.upgradeColors_ne_nil ?_, (Theme.upgraded written).unbroken (hlines _ hmem)⟩
    rintro rfl
    exact hblank Text.allBlank_nil

/-! ### Both sections -/

/-- The lines of the two parts that come last, with an empty line between them. -/
def ending (utilities custom : List Text) : List Text :=
  if utilities = [] then custom else if custom = [] then utilities else spaced utilities ++ custom

theorem titled_carriedLines (title : Text) (lines : List Text) :
    titled title (carriedLines lines) =
      if part title lines = [] then [] else spaced (part title lines) := by
  rw [titled, part]
  by_cases hcarried : carriedLines lines = []
  · rw [hcarried]
    rfl
  · rw [if_neg (by simpa using hcarried), if_neg hcarried, if_neg (List.cons_ne_nil _ _)]

/-- Together, the two parts have one empty line after them. -/
theorem spaced_ending (utilities custom : List Text) :
    (if utilities = [] then [] else spaced utilities) ++
        (if custom = [] then [] else spaced custom) =
      if ending utilities custom = [] then [] else spaced (ending utilities custom) := by
  rw [ending]
  by_cases hutilities : utilities = []
  · rw [if_pos hutilities, if_pos hutilities, List.nil_append]
  · rw [if_neg hutilities, if_neg hutilities]
    by_cases hcustom : custom = []
    · rw [if_pos hcustom, if_pos hcustom, List.append_nil, if_neg hutilities]
    · rw [if_neg hcustom, if_neg hcustom, if_neg (by simp [hcustom])]
      simp only [spaced, List.append_assoc]

/-! ### The parts before -/

/-- Lines of which the last one is empty. -/
def EndsSpaced (lines : List Text) : Prop := ∃ init, init ≠ [] ∧ lines = spaced init

theorem EndsSpaced.append_left (h : EndsSpaced lines) (front : List Text) :
    EndsSpaced (front ++ lines) := by
  obtain ⟨init, hinit, rfl⟩ := h
  exact ⟨front ++ init, by simp [hinit], by simp [spaced]⟩

/-- Another part leaves an empty line at the end, if it has lines. -/
theorem EndsSpaced.append {next : List Text} (h : EndsSpaced lines)
    (hnext : next ≠ [] → EndsSpaced next) : EndsSpaced (lines ++ next) := by
  by_cases hnil : next = []
  · rw [hnil, List.append_nil]
    exact h
  · exact (hnext hnil).append_left lines

theorem endsSpaced_titled (title : Text) (h : titled title lines ≠ []) :
    EndsSpaced (titled title lines) := by
  rw [titled] at h ⊢
  split at h
  · exact absurd rfl h
  · next hne =>
    rw [if_neg hne]
    exact ⟨_, List.cons_ne_nil _ _, rfl⟩

theorem endsSpaced_pluginPart {blocks : List (List Text)} (h : pluginPart blocks ≠ []) :
    EndsSpaced (pluginPart blocks) := by
  rw [pluginPart] at h ⊢
  split at h
  · exact absurd rfl h
  · next hne =>
    rw [if_neg hne]
    rcases List.eq_nil_or_concat blocks with rfl | ⟨init, last, rfl⟩
    · exact absurd rfl hne
    · refine ⟨"/* Plugin configurations */" :: (init.flatMap spaced ++ last),
        List.cons_ne_nil _ _, ?_⟩
      simp [spaced]

/-- The two parts come after all others, which end with an empty line. -/
theorem mergedLines_ending (lib : Css.Library) (config : Value) (sections : Sheet.Sections)
    (base : List Sheet.BaseRule) :
    ∃ main, EndsSpaced main ∧
      (mergedLines lib config sections base).value =
        main ++ (titled "Utilities" (carriedLines sections.utilities) ++
          titled "Custom styles" (carriedLines sections.custom)) := by
  rw [mergedLines]
  simp only [Reported.value_bind, Reported.value_pure]
  refine ⟨_, ?_, List.append_assoc _ _ _⟩
  refine .append ?_ endsSpaced_pluginPart
  iterate 4 refine .append ?_ (endsSpaced_titled _)
  have himport : titled "Import Tailwind" [tailwindImport] ≠ [] := List.cons_ne_nil _ _
  exact (endsSpaced_titled _ himport).append_left _

/-! ### The end of the stylesheet -/

/-- A text that ends with one line feed, and has more than that. -/
def EndsWithOneLineFeed (s : Text) : Prop :=
  ∃ init c, s = init ++ [c, .char '\n'] ∧ c ≠ .char '\n'

theorem stylesheetText_eq (lines : List Text) :
    stylesheetText lines =
      (Text.joinLines lines).rdropWhile (· == .char '\n') ++ [.char '\n'] := rfl

/-- Joined lines end with the last one. -/
theorem exists_joinLines_append {last : Text} (h : last ∈ lines.getLast?) :
    ∃ s, Text.joinLines lines = s ++ last := by
  obtain ⟨init, rfl⟩ := List.getLast?_eq_some_iff.1 (Option.mem_def.1 h)
  by_cases hinit : init = []
  · exact ⟨[], by rw [hinit, List.nil_append, List.nil_append, Text.joinLines_singleton]⟩
  · refine ⟨Text.joinLines init ++ [.char '\n'], ?_⟩
    rw [Text.joinLines_append hinit (by simp), Text.joinLines_singleton, List.append_assoc]
    rfl

theorem joinLines_spaced (h : lines ≠ []) :
    Text.joinLines (spaced lines) = Text.joinLines lines ++ [.char '\n'] :=
  Text.joinLines_append h (List.cons_ne_nil _ _)

/-- Trimming leaves one line feed at the end of what has more than line feeds. -/
theorem endsWithOneLineFeed_stylesheetText (h : stylesheetText lines ≠ [.char '\n']) :
    EndsWithOneLineFeed (stylesheetText lines) := by
  rw [stylesheetText_eq] at h ⊢
  have hne : (Text.joinLines lines).rdropWhile (· == .char '\n') ≠ [] := by
    intro hnil
    rw [hnil] at h
    exact h rfl
  have hlast := List.rdropWhile_last_not (· == .char '\n') (Text.joinLines lines) hne
  refine ⟨((Text.joinLines lines).rdropWhile (· == .char '\n')).dropLast,
    ((Text.joinLines lines).rdropWhile (· == .char '\n')).getLast hne, ?_, ?_⟩
  · conv_lhs => rw [← List.dropLast_append_getLast hne]
    exact List.append_assoc _ _ _
  · intro hc
    exact hlast (beq_iff_eq.2 hc)

/-- Of lines with an empty line after them, that one is what the end of a stylesheet loses. -/
theorem stylesheetText_spaced {last : Text} (hlast : last ∈ lines.getLast?) (hne : last ≠ [])
    (hbreak : Text.Unbroken last) :
    stylesheetText (spaced lines) = Text.joinLines lines ++ [.char '\n'] := by
  have hlines : lines ≠ [] := by
    rintro rfl
    cases hlast
  rcases List.eq_nil_or_concat last with rfl | ⟨init, c, rfl⟩
  · exact absurd rfl hne
  · obtain ⟨s, hs⟩ := exists_joinLines_append hlast
    rw [List.concat_eq_append] at hbreak hs
    have hc : ¬((c == .char '\n') = true) := by
      intro hfeed
      have hunbroken := hbreak c (by simp)
      rw [beq_iff_eq.1 hfeed] at hunbroken
      exact absurd hunbroken (by decide)
    have htrimmed := List.rdropWhile_concat_pos (· == CodePoint.char '\n') (Text.joinLines lines)
      (.char '\n') (beq_self_eq_true _)
    have hkept := List.rdropWhile_concat_neg (· == CodePoint.char '\n') (s ++ init) c hc
    rw [stylesheetText_eq, joinLines_spaced hlines, htrimmed, hs, ← List.append_assoc, hkept]

/-- The parts before stand before an empty line, whatever comes after it. -/
theorem EndsSpaced.joinLines_append {main : List Text} (hmain : EndsSpaced main) (h : lines ≠ []) :
    ∃ before, Text.joinLines (main ++ lines) =
      before ++ [.char '\n', .char '\n'] ++ Text.joinLines lines := by
  obtain ⟨init, hinit, rfl⟩ := hmain
  refine ⟨Text.joinLines init, ?_⟩
  rw [Text.joinLines_append (by simp [spaced]) h, joinLines_spaced hinit, List.append_assoc,
    List.append_assoc]
  rfl

/-- The last line of the two parts is not empty, and is a line. -/
theorem last_of_ending (css : Text) {last : Text}
    (h : last ∈ (ending (part "Utilities" (Sheet.Sections.ofText css).utilities)
      (part "Custom styles" (Sheet.Sections.ofText css).custom)).getLast?) :
    last ≠ [] ∧ Text.Unbroken last := by
  have hunbroken : ∀ s ≠ Sheet.Section.imports, ∀ line ∈ (Sheet.Sections.ofText css).get s,
      Text.Unbroken line :=
    fun s hs line hline => Text.unbroken_of_mem_lines (Sheet.plain_of_mem_get hs hline).1
  have hutilities := hunbroken .utilities (by decide)
  have hcustom := hunbroken .custom (by decide)
  rw [ending] at h
  split_ifs at h with hnil hnil'
  · exact last_of_part _ hcustom h
  · exact last_of_part _ hutilities h
  · rw [List.getLast?_append_of_ne_nil _ hnil'] at h
    exact last_of_part _ hcustom h

/-- **What is written outside of the layers is carried through whole.** Whatever the configuration
and the stylesheet are, the new stylesheet ends with the utilities and the custom rules, and one
line feed; they begin after an empty line. -/
theorem merge_ends (lib : Css.Library) (fields : Record Value) (css : Text) :
    (merge lib (.object fields) (Sheet.Sections.ofText css)).failure = none ∧
    EndsWithOneLineFeed (merge lib (.object fields) (Sheet.Sections.ofText css)).css ∧
    ∃ utilities custom front,
      CarriedWhole "Utilities" (Sheet.Sections.ofText css).utilities utilities ∧
      CarriedWhole "Custom styles" (Sheet.Sections.ofText css).custom custom ∧
      (merge lib (.object fields) (Sheet.Sections.ofText css)).css =
        front ++ (Text.joinLines (ending utilities custom) ++ [.char '\n']) ∧
      (ending utilities custom ≠ [] → [.char '\n', .char '\n'] <:+ front) := by
  set sections := Sheet.Sections.ofText css
  let base := (Sheet.baseRules lib (sections.text .base)).mapNotices Notice.sheet
  let utilities := part "Utilities" sections.utilities
  let custom := part "Custom styles" sections.custom
  obtain ⟨main, hmain, hlines⟩ := mergedLines_ending lib (.object fields) sections base.value
  rw [titled_carriedLines, titled_carriedLines, spaced_ending] at hlines
  have hcss : (merge lib (.object fields) sections).css =
      stylesheetText (main ++ if ending utilities custom = [] then []
        else spaced (ending utilities custom)) := congrArg stylesheetText hlines
  refine ⟨rfl, ?_, utilities, custom, ?_⟩
  · -- what comes of a configuration has the import of Tailwind in it
    apply endsWithOneLineFeed_stylesheetText
    intro hnothing
    obtain ⟨rest, hrest⟩ := merge_css lib fields sections
    obtain ⟨front, hfront⟩ := joinLines_opening (carriedImports sections.imports)
    have hlength := congrArg List.length (hnothing.symm.trans hrest)
    rw [hfront] at hlength
    simp only [List.length_append, List.length_cons, List.length_nil] at hlength
    omega
  · by_cases hending : ending utilities custom = []
    · refine ⟨(Text.joinLines main).rdropWhile (· == .char '\n'), carriedWhole_part _ _,
        carriedWhole_part _ _, ?_, fun hne => absurd hending hne⟩
      rw [hcss, if_pos hending, List.append_nil, hending]
      rfl
    · obtain ⟨before, hbefore⟩ := hmain.joinLines_append hending
      refine ⟨before ++ [.char '\n', .char '\n'], carriedWhole_part _ _, carriedWhole_part _ _,
        ?_, fun _ => List.suffix_append _ _⟩
      have hlast : (ending utilities custom).getLast hending ∈
          (main ++ ending utilities custom).getLast? := by
        rw [List.getLast?_append_of_ne_nil _ hending]
        exact List.getLast?_eq_some_getLast hending
      obtain ⟨hne, hbreak⟩ := last_of_ending css (List.getLast?_eq_some_getLast hending)
      rw [hcss, if_neg hending, spaced, ← List.append_assoc, ← spaced,
        stylesheetText_spaced hlast hne hbreak, hbefore, List.append_assoc]

end TailwindUpgrade.Migration
