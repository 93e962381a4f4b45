/-
TailwindUpgrade/Proofs/Migration/Reconversion.lean

Migrating a stylesheet that was migrated before.  The new stylesheet begins with its imports, one
empty line, and the import of Tailwind (`opening`), whatever comes after them.  Cut into lines again
it has the same lines there, so the next run finds these imports first, takes out the one of
Tailwind, and writes the others where they were.  Lines further on may be taken for imports and come
after them.

Main result: however often a stylesheet is migrated, no run fails, none loses or reorders an import
that the one before it carried over, and none carries over one of Tailwind (`imports_conserved`).
-/
import Mathlib.Data.List.DropRight
import TailwindUpgrade.Css.Rule
import TailwindUpgrade.Migration.Convert
import TailwindUpgrade.Proofs.Sheet.Section

namespace TailwindUpgrade.Migration

open Sheet (isImport)

variable {lib : Css.Library} {fields : Record Value} {notices : List Config.Notice}

/-- The imports that a run carries over from a stylesheet. -/
def carried (css : Text) : List Text := carriedImports (Sheet.Sections.ofText css).imports

/-- The lines of the imports part of a new stylesheet, between its title and the empty line after
it; the part comes first, if there is one. -/
def importsPart (css : Text) : List Text :=
  match Text.lines css with
  | [] => []
  | title :: lines => if title = "/* Imports */" then lines.takeWhile (· ≠ []) else []

/-! ### What a new stylesheet begins with -/

/-- The lines that a new stylesheet begins with, if it carries over some imports. -/
def opening (imports : List Text) : List Text :=
  titled "Imports" imports ++ [("/* Import Tailwind */" : Text), tailwindImport]

/-- What is cut off the end of a text stands behind a character that is not. -/
theorem exists_rdropWhile_append {p : CodePoint → Bool} {c : CodePoint} (hc : ¬ p c = true)
    (s t : Text) : ∃ t', t' <+: t ∧ (s ++ [c] ++ t).rdropWhile p = s ++ [c] ++ t' := by
  induction t using List.reverseRecOn with
  | nil =>
    refine ⟨[], List.nil_prefix, ?_⟩
    rw [List.append_nil, List.rdropWhile_concat_neg _ _ _ hc]
  | append_singleton t d ih =>
    by_cases hd : p d = true
    · obtain ⟨t', ht', hrest⟩ := ih
      refine ⟨t', ht'.trans (List.prefix_append _ _), ?_⟩
      rw [← List.append_assoc, List.rdropWhile_concat_pos _ _ _ hd, hrest]
    · refine ⟨t ++ [d], List.prefix_rfl, ?_⟩
      rw [← List.append_assoc, List.rdropWhile_concat_neg _ _ _ hd]

theorem joinLines_opening (imports : List Text) :
    ∃ s, Text.joinLines (opening imports) = s ++ [.char ';'] := by
  have hopening : opening imports =
      (titled "Imports" imports ++ [("/* Import Tailwind */" : Text)]) ++ [tailwindImport] := by
    simp [opening]
  have himport : tailwindImport = ("@import \"tailwindcss\"" : Text) ++ [.char ';'] := rfl
  rw [hopening, Text.joinLines_append (by simp) (by simp), Text.joinLines_singleton, himport,
    ← List.cons_append, ← List.append_assoc]
  exact ⟨_, rfl⟩

/-- The lines at the beginning of a stylesheet stand there in its text, with a line feed behind
them. -/
theorem stylesheetText_opening (imports : List Text) {back : List Text} (hback : back ≠ []) :
    ∃ rest, stylesheetText (opening imports ++ back) =
      Text.joinLines (opening imports) ++ .char '\n' :: rest := by
  obtain ⟨s, hs⟩ := joinLines_opening imports
  have hne : opening imports ≠ [] := by simp [opening]
  have hsemicolon : ¬ ((.char ';' : CodePoint) == .char '\n') = true := by decide
  obtain ⟨t', ht', htrim⟩ := exists_rdropWhile_append (p := (· == .char '\n')) hsemicolon s
    (.char '\n' :: Text.joinLines back)
  have htext : stylesheetText (opening imports ++ back) =
      Text.joinLines (opening imports) ++ (t' ++ [.char '\n']) := by
    rw [stylesheetText, Text.joinLines_append hne hback, hs, ← List.append_assoc, ← htrim]
    rfl
  -- what is left behind the opening is nothing, or begins with its line feed
  cases t' with
  | nil => exact ⟨[], htext⟩
  | cons d t' =>
    obtain rfl : d = .char '\n' := (List.cons_prefix_cons.1 ht').1
    exact ⟨t' ++ ([.char '\n'] : Text), htext⟩

theorem opening_append_nil (imports : List Text) :
    opening imports ++ [[]] =
      titled "Imports" imports ++ titled "Import Tailwind" [tailwindImport] := by
  rw [opening, List.append_assoc]
  rfl

/-- All parts of a stylesheet come after its opening. -/
theorem opening_prefix (lib : Css.Library) (config : Value) (sections : Sheet.Sections)
    (base : List Sheet.BaseRule) :
    opening (carriedImports sections.imports) ++ [[]] <+:
      (mergedLines lib config sections base).value := by
  rw [opening_append_nil, mergedLines]
  simp only [Reported.value_bind, Reported.value_pure]
  iterate 7 apply List.prefix_append_of_prefix
  exact List.prefix_rfl

/-- A new stylesheet begins with the imports that were carried over. -/
theorem merge_css (lib : Css.Library) (fields : Record Value) (sections : Sheet.Sections) :
    ∃ rest, (merge lib (.object fields) sections).css =
      Text.joinLines (opening (carriedImports sections.imports)) ++ .char '\n' :: rest := by
  obtain ⟨back, hback⟩ := opening_prefix lib (.object fields) sections
    ((Sheet.baseRules lib (sections.text .base)).mapNotices Notice.sheet).value
  rw [List.append_assoc] at hback
  have hne : [[]] ++ back ≠ [] := by simp
  obtain ⟨rest, hrest⟩ := stylesheetText_opening (carriedImports sections.imports) hne
  rw [hback] at hrest
  exact ⟨rest, hrest⟩

/-! ### One run -/

/-- A migration gives a stylesheet if a configuration is read from the source, whatever stylesheet
it starts from. -/
theorem convert_of_read {config : Text} (h : Config.read config = .ok ⟨.ok fields, notices⟩)
    (css : Text) : convert lib config css = .ok (migrate lib fields notices css) := by
  rw [convert, h]

/-- A migration that succeeds is one by a configuration that was read. -/
theorem read_of_convert {config css : Text} {run : Outcome} (h : convert lib config css = .ok run)
    (hsucceeds : run.failure = none) :
    ∃ fields notices, Config.read config = .ok ⟨.ok fields, notices⟩ := by
  rw [convert] at h
  split at h
  · rw [← Except.ok.inj h] at hsucceeds
    cases hsucceeds
  · cases h
  · next fields notices hread => exact ⟨fields, notices, hread⟩

/-! ### What is carried over -/

theorem carried_eq (css : Text) :
    carried css = (Text.lines css).filter fun line => isImport line && !importsTailwind line := by
  rw [carried, carriedImports, Sheet.imports_ofText, List.filter_filter]
  simp only [Bool.and_comm]

/-- What is carried over is an import, and none of Tailwind, on a line of its own. -/
theorem spec_of_mem_carried {css line : Text} (h : line ∈ carried css) :
    isImport line = true ∧ importsTailwind line = false ∧ line ≠ [] ∧ Text.Unbroken line := by
  rw [carried_eq, List.mem_filter, Bool.and_eq_true, Bool.not_eq_true'] at h
  obtain ⟨hline, himport, htailwind⟩ := h
  refine ⟨himport, htailwind, ?_, Text.unbroken_of_mem_lines hline⟩
  rintro rfl
  exact absurd himport (by decide)

theorem opening_of_ne_nil {imports : List Text} (h : imports ≠ []) :
    opening imports = ("/* Imports */" : Text) ::
      (imports ++ [([] : Text), "/* Import Tailwind */", tailwindImport]) := by
  have htitle : ("/* " : Text) ++ "Imports" ++ " */" = ("/* Imports */" : Text) := rfl
  rw [opening, titled, if_neg (by simpa using h), htitle, spaced]
  simp

theorem unbroken_opening (css : Text) : ∀ line ∈ opening (carried css), Text.Unbroken line := by
  have hcarried : ∀ line ∈ carried css, Text.Unbroken line :=
    fun line h => (spec_of_mem_carried h).2.2.2
  have htitles : ∀ line ∈ [("/* Imports */" : Text), [], "/* Import Tailwind */", tailwindImport],
      Text.Unbroken line := by decide
  intro line h
  by_cases hne : carried css = []
  · rw [hne] at h
    exact htitles line (List.mem_cons_of_mem _ (List.mem_cons_of_mem _ h))
  · rw [opening_of_ne_nil hne] at h
    rcases List.mem_cons.1 h with rfl | h
    · exact htitles _ List.mem_cons_self
    · rcases List.mem_append.1 h with h | h
      · exact hcarried line h
      · exact htitles line (List.mem_cons_of_mem _ h)

/-- The imports among the lines of an opening are those in it, and then the one of Tailwind. -/
theorem filter_isImport_opening {imports : List Text} (h : ∀ line ∈ imports, isImport line = true) :
    (opening imports).filter isImport = imports ++ [tailwindImport] := by
  have htitles : [([] : Text), "/* Import Tailwind */", tailwindImport].filter isImport =
      [tailwindImport] := by decide
  have htitle : ¬ isImport "/* Imports */" = true := by decide
  by_cases hne : imports = []
  · subst hne
    exact htitles
  · rw [opening_of_ne_nil hne, List.filter_cons_of_neg htitle, List.filter_append, htitles,
      List.filter_eq_self.2 h]

/-- The imports part is read off a stylesheet that begins with it. -/
theorem importsPart_of_lines {css : Text} {imports rest : List Text}
    (hne : ∀ line ∈ imports, line ≠ []) (h : Text.lines css = opening imports ++ rest) :
    importsPart css = imports := by
  rw [importsPart, h]
  by_cases hnil : imports = []
  · subst hnil
    exact if_neg (by decide)
  · rw [opening_of_ne_nil hnil, List.cons_append, List.append_assoc]
    simp only [if_true]
    rw [List.takeWhile_append_of_pos (by simpa using hne)]
    simp

variable (lib fields notices) in
/-- What a run that succeeds writes: an opening with the imports that it carries over. -/
theorem lines_migrate (css : Text) :
    ∃ rest, Text.lines (migrate lib fields notices css).css = opening (carried css) ++ rest := by
  obtain ⟨rest, hrest⟩ := merge_css lib fields (Sheet.Sections.ofText css)
  have hne : opening (carried css) ≠ [] := by simp [opening]
  refine ⟨Text.lines rest, ?_⟩
  show Text.lines (merge lib (.object fields) (Sheet.Sections.ofText css)).css = _
  rw [hrest]
  exact Text.lines_joinLines_append hne (unbroken_opening css) rest

variable (lib fields notices) in
theorem importsPart_migrate (css : Text) :
    importsPart (migrate lib fields notices css).css = carried css := by
  obtain ⟨rest, hlines⟩ := lines_migrate lib fields notices css
  exact importsPart_of_lines (fun line hline => (spec_of_mem_carried hline).2.2.1) hlines

variable (lib fields notices) in
/-- The imports of a new stylesheet are those carried over, then the one of Tailwind, then lines
from its other parts. -/
theorem imports_migrate (css : Text) :
    carried css ++ [tailwindImport] <+:
      (Sheet.Sections.ofText (migrate lib fields notices css).css).imports := by
  obtain ⟨rest, hlines⟩ := lines_migrate lib fields notices css
  have himports : ∀ line ∈ carried css, isImport line = true :=
    fun line hline => (spec_of_mem_carried hline).1
  rw [Sheet.imports_ofText, hlines, List.filter_append, filter_isImport_opening himports]
  exact List.prefix_append _ _

/-- The next run carries over what this one did, and perhaps more. -/
theorem carried_migrate (css : Text) :
    carried css <+: carried (migrate lib fields notices css).css := by
  have hcarried : carriedImports (carried css ++ [tailwindImport]) = carried css := by
    have hkept : ∀ line ∈ carried css, (!importsTailwind line) = true := by
      intro line hline
      rw [(spec_of_mem_carried hline).2.1]
      rfl
    have htailwind : carriedImports [tailwindImport] = [] := by decide
    rw [carriedImports, List.filter_append, List.filter_eq_self.2 hkept]
    exact (congrArg _ htailwind).trans (List.append_nil _)
  have hprefix := (imports_migrate lib fields notices css).filter fun line => !importsTailwind line
  rwa [← carriedImports, hcarried] at hprefix

/-! ### Run after run -/

/-- What holds of every run: it succeeds, it carries over no import of Tailwind, and the imports of
its stylesheet begin with those it carried over and the one of Tailwind. -/
structure CarriesImports (run : Outcome) : Prop where
  succeeds : run.failure = none
  foreign : ∀ line ∈ importsPart run.css, importsTailwind line = false
  first : importsPart run.css ++ [tailwindImport] <+: (Sheet.Sections.ofText run.css).imports

theorem carriesImports_migrate (css : Text) : CarriesImports (migrate lib fields notices css) := by
  refine ⟨rfl, ?_, ?_⟩
  · rw [importsPart_migrate]
    exact fun line hline => (spec_of_mem_carried hline).2.1
  · rw [importsPart_migrate]
    exact imports_migrate _ _ _ css

/-- The runs of a configuration that was read, each from the stylesheet of the one before it. -/
def runs (lib : Css.Library) (fields : Record Value) (notices : List Config.Notice) :
    Nat → Text → List Outcome
  | 0, _ => []
  | times + 1, css =>
    let run := migrate lib fields notices css
    run :: runs lib fields notices times run.css

theorem convertTimes_of_read {config : Text} (h : Config.read config = .ok ⟨.ok fields, notices⟩)
    (times : Nat) (css : Text) :
    convertTimes lib config times css = .ok (runs lib fields notices times css) := by
  induction times generalizing css with
  | zero => rfl
  | succ times ih =>
    rw [convertTimes, convert_of_read h]
    show (convertTimes lib config times _ >>= fun outcomes => _) = _
    rw [ih]
    rfl

theorem isChain_runs (times : Nat) (css : Text) :
    (runs lib fields notices times css).IsChain fun run next =>
      importsPart run.css <+: importsPart next.css := by
  induction times generalizing css with
  | zero => exact .nil
  | succ times ih =>
    cases times with
    | zero => exact .singleton _
    | succ times =>
      have hstep : importsPart (migrate lib fields notices css).css <+:
          importsPart (migrate lib fields notices (migrate lib fields notices css).css).css := by
        rw [importsPart_migrate, importsPart_migrate]
        exact carried_migrate css
      exact .cons_cons hstep (ih (migrate lib fields notices css).css)

theorem mem_runs {times : Nat} {css : Text} {run : Outcome}
    (h : run ∈ runs lib fields notices times css) :
    ∃ before, run = migrate lib fields notices before := by
  induction times generalizing css with
  | zero => cases h
  | succ times ih =>
    rcases List.mem_cons.1 h with rfl | h
    · exact ⟨css, rfl⟩
    · exact ih h

theorem length_runs (times : Nat) (css : Text) :
    (runs lib fields notices times css).length = times := by
  induction times generalizing css with
  | zero => rfl
  | succ times ih => exact congrArg (· + 1) (ih (migrate lib fields notices css).css)

/-- **Migrating again and again conserves the imports.**  If the first run succeeds, every run does.
The first one carries over the imports of the stylesheet but those of Tailwind, in their order; each
run carries over what the one before it did, and what it adds comes after that; and none carries
over an import of Tailwind, but each writes one of its own behind the imports that it carries
over. -/
theorem imports_conserved {config css : Text} {first : Outcome}
    (h : convert lib config css = .ok first) (hsucceeds : first.failure = none) (times : Nat) :
    ∃ runs, convertTimes lib config times css = .ok runs ∧ runs.length = times ∧
      (∀ run ∈ runs, CarriesImports run) ∧
      (∀ run ∈ runs.head?, importsPart run.css =
        (Text.lines css).filter fun line => isImport line && !importsTailwind line) ∧
      runs.IsChain fun run next => importsPart run.css <+: importsPart next.css := by
  obtain ⟨fields, notices, hread⟩ := read_of_convert h hsucceeds
  refine ⟨_, convertTimes_of_read hread times css, length_runs _ _, fun run hrun => ?_,
    fun run hrun => ?_, isChain_runs _ _⟩
  · obtain ⟨before, rfl⟩ := mem_runs hrun
    exact carriesImports_migrate before
  · cases times with
    | zero => cases hrun
    | succ times =>
      obtain rfl : migrate lib fields notices css = run := Option.some.inj hrun
      rw [importsPart_migrate, carried_eq]

/-- A stylesheet with an import of its own and one of Tailwind, for a configuration whose screen has
a line feed and an import in its name: the second run finds that import as well. -/
theorem imports_conserved_growing :
    let config : Text :=
      "export default \x7btheme:\x7bscreens:\x7b'm\\n@import z':''\x7d\x7d\x7d satisfies Config"
    let css : Text := " @import 'x.css';\n@import 'tailwindcss/base';"
    ∃ first runs, convert Css.library config css = .ok first ∧ first.failure = none ∧
      convertTimes Css.library config 2 css = .ok runs ∧ (∀ run ∈ runs, CarriesImports run) ∧
      runs.map (importsPart ·.css) =
        ([[" @import 'x.css';"], [" @import 'x.css';", "@import z (min-width: );"]] :
          List (List Text)) := by
  intro config css
  have hfailure : (convert Css.library config css).map (·.failure) = .ok none := by decide +kernel
  have himports : (convertTimes Css.library config 2 css).map (·.map (importsPart ·.css)) =
      .ok ([[" @import 'x.css';"], [" @import 'x.css';", "@import z (min-width: );"]] :
        List (List Text)) := by decide +kernel
  cases hfirst : convert Css.library config css with
  | error interruption =>
    rw [hfirst] at hfailure
    cases hfailure
  | ok first =>
    rw [hfirst] at hfailure
    have hsucceeds : first.failure = none := Except.ok.inj hfailure
    obtain ⟨runs, hruns, -, hcarries, -⟩ := imports_conserved hfirst hsucceeds 2
    rw [hruns] at himports
    exact ⟨first, runs, rfl, hsucceeds, hruns, hcarries, Except.ok.inj himports⟩

end TailwindUpgrade.Migration
