/-
TailwindUpgrade/Proofs/Migration/Outcome.lean

How a migration ends.  It succeeds, with a whole stylesheet and no error, or it fails, with one
error and no stylesheet; there is nothing between the two.  What decides is known before anything is
converted: whether the configuration is an object (`succeeded_merge`, `failed_merge`), and for a
migration from the source of a configuration, whether there is one in it (`succeeded_convert`,
`failed_convert`).  No value inside of a configuration, of whatever kind and in whatever place, and
no stylesheet makes a migration fail.

The warnings that there were before stay in front in any case.  But a migration may come to no end
at all, if a numeral of too many digits breaks the reading of the configuration off
(`convert_of_brokenOff`).

Main result: a migration succeeds whole or fails with nothing, unless it is broken off
(`whole_or_nothing`).
-/
import TailwindUpgrade.Css.Rule
import TailwindUpgrade.Proofs.Config.Isolation
import TailwindUpgrade.Proofs.Config.Presence
import TailwindUpgrade.Proofs.Migration.Carried

namespace TailwindUpgrade.Migration

variable {source : Text}

/-- The import of Tailwind, on the line behind its title. -/
def importLines : List Text := ["/* Import Tailwind */", tailwindImport]

/-- The report on a migration that succeeded: there is no error, and a stylesheet that ends with one
line feed and has the import of Tailwind among its lines, right behind its title. -/
structure Report.Succeeded (report : Report) : Prop where
  errors : report.errors = []
  ends : EndsWithOneLineFeed report.css
  imports : importLines <:+: Text.lines report.css

/-- The report on a migration that failed: there is one error, which says why, no stylesheet, and
warnings about nothing but what was read until then. -/
structure Report.Failed (report : Report) (failure : Failure) (warnings : List Text) : Prop where
  errors : report.errors = [failure.message]
  css : report.css = []
  warnings : report.warnings = warnings

/-! ### The import of Tailwind -/

/-- The import and its title are what a stylesheet begins with, or stand behind a line feed. -/
theorem joinLines_opening_cases (imports : List Text) :
    Text.joinLines (opening imports) = Text.joinLines importLines ∨
      ∃ front, Text.joinLines (opening imports) =
        front ++ .char '\n' :: Text.joinLines importLines := by
  by_cases hnil : titled "Imports" imports = []
  · refine .inl ?_
    rw [opening, hnil]
    rfl
  · exact .inr ⟨_, Text.joinLines_append hnil (List.cons_ne_nil _ _)⟩

/-- A new stylesheet has the import among its lines, whatever the imports before it are. -/
theorem importLines_infix (imports : List Text) (rest : Text) :
    importLines <:+: Text.lines (Text.joinLines (opening imports) ++ .char '\n' :: rest) := by
  have hlines : Text.lines (Text.joinLines importLines ++ .char '\n' :: rest) =
      importLines ++ Text.lines rest :=
    Text.lines_joinLines_append (List.cons_ne_nil _ _) (by decide) rest
  rcases joinLines_opening_cases imports with hfirst | ⟨front, hfront⟩
  · rw [hfirst, hlines]
    exact (List.prefix_append _ _).isInfix
  · obtain ⟨line, ls, hbefore⟩ := Text.exists_lines_append_lineFeed front
      (Text.joinLines importLines ++ .char '\n' :: rest)
    rw [hfront, List.append_assoc, List.cons_append, hbefore, hlines]
    exact ⟨line :: ls, Text.lines rest, List.append_assoc _ _ _⟩

/-! ### Putting a stylesheet together -/

/-- An object gives a whole stylesheet, whatever its fields are. -/
theorem succeeded_merge (lib : Css.Library) (fields : Record Value) (sections : Sheet.Sections)
    (before : List Text) : ((merge lib (.object fields) sections).report before).Succeeded := by
  obtain ⟨rest, hcss⟩ := merge_css lib fields sections
  have himports : importLines <:+: Text.lines (merge lib (.object fields) sections).css := by
    rw [hcss]
    exact importLines_infix _ rest
  refine ⟨rfl, endsWithOneLineFeed_stylesheetText fun hnothing => ?_, himports⟩
  -- a line feed alone has not two lines
  have hfeed : (merge lib (.object fields) sections).css = [.char '\n'] := hnothing
  have hlength := himports.length_le
  rw [hfeed] at hlength
  exact absurd hlength (by decide)

/-- Anything else gives none, after the base layer was read. -/
theorem failed_merge (lib : Css.Library) {config : Value} (h : ∀ fields, config ≠ .object fields)
    (sections : Sheet.Sections) (before : List Text) :
    ((merge lib config sections).report before).Failed (.noObject config.kindName)
      (before ++ (Sheet.baseRules lib (sections.text .base)).notices.map Sheet.Notice.message) := by
  cases config with
  | object fields => exact absurd rfl (h fields)
  | _ => exact ⟨rfl, rfl, congrArg (before ++ ·) List.map_map⟩

/-! ### A whole migration -/

/-- With a configuration that was read, a migration goes on as from that configuration. -/
theorem report_migrate (lib : Css.Library) (fields : Record Value) (notices : List Config.Notice)
    (css : Text) (before : List Text) :
    (migrate lib fields notices css).report before =
      (merge lib (.object fields) (Sheet.Sections.ofText css)).report
        (before ++ notices.map Config.Notice.message) := by
  simp only [migrate, Outcome.report, List.map_append, List.map_map, List.append_assoc]
  rfl

theorem succeeded_convert (lib : Css.Library) {fields : Record Value}
    {notices : List Config.Notice} (h : Config.read source = .ok ⟨.ok fields, notices⟩)
    (css : Text) :
    ∃ outcome, convert lib source css = .ok outcome ∧ (outcome.report []).Succeeded := by
  refine ⟨_, convert_of_read h css, ?_⟩
  rw [report_migrate]
  exact succeeded_merge _ _ _ _

theorem failed_convert (lib : Css.Library) (h : ¬Config.HoldsConfig source) (css : Text) :
    ∃ outcome, convert lib source css = .ok outcome ∧
      (outcome.report []).Failed (.config .noConfigObject) [] := by
  rw [convert, Config.read_of_not_holdsConfig h]
  exact ⟨_, rfl, rfl, rfl, rfl⟩

/-- A migration is broken off where the reading of the configuration is. -/
theorem convert_of_brokenOff (lib : Css.Library) {fault : Literal.Fault}
    {notices : List Config.Notice} (h : Config.read source = .ok ⟨.error fault, notices⟩)
    (css : Text) : convert lib source css = .error ⟨fault, notices.map .config⟩ := by
  rw [convert, h]

/-- **A migration succeeds whole or fails with nothing, unless it is broken off.**  A configuration
that is an object gives a whole stylesheet, with any values at any of its keys; any other gives
none, one error, and the warnings about the base layer.  Warnings from before stay in front.  From
the source of a configuration there is an error just if the source holds no configuration, and then
nothing else; if it holds one there is a whole stylesheet, unless there is a numeral of too many
digits in it that breaks its reading off, and the migration with it. -/
theorem whole_or_nothing (lib : Css.Library) (config : Value) (sections : Sheet.Sections)
    (before : List Text) (source css : Text) :
    (before <+: ((merge lib config sections).report before).warnings ∧
      ((∃ fields, config = .object fields) →
        ((merge lib config sections).report before).Succeeded) ∧
      ((∀ fields, config ≠ .object fields) →
        ((merge lib config sections).report before).Failed (.noObject config.kindName)
          (before ++
            (Sheet.baseRules lib (sections.text .base)).notices.map Sheet.Notice.message))) ∧
    (¬Config.HoldsConfig source →
      ∃ outcome, convert lib source css = .ok outcome ∧
        (outcome.report []).Failed (.config .noConfigObject) []) ∧
      (Config.HoldsConfig source → ∃ found, Config.read source = .ok found ∧
        (∀ fields, found.value = .ok fields →
          ∃ outcome, convert lib source css = .ok outcome ∧ (outcome.report []).Succeeded) ∧
        ∀ fault, found.value = .error fault → fault.IsLong ∧
          convert lib source css = .error ⟨fault, found.notices.map .config⟩) := by
  refine ⟨⟨List.prefix_append _ _, ?_, fun h => failed_merge lib h sections before⟩,
    fun h => failed_convert lib h css, fun h => ?_⟩
  · rintro ⟨fields, rfl⟩
    exact succeeded_merge lib fields sections before
  · obtain ⟨⟨value, notices⟩, hread⟩ := Config.exists_read_iff.2 h
    refine ⟨_, hread, ?_, ?_⟩
    · rintro fields rfl
      exact succeeded_convert lib hread css
    · rintro fault rfl
      exact ⟨Config.sturdy_of_read hread fault rfl, convert_of_brokenOff lib hread css⟩

/-- A base layer that cannot be read, with no configuration and with one whose theme is a text; and
sources without a configuration and with an empty one. -/
theorem whole_or_nothing_cases :
    let sections : Sheet.Sections := ⟨[], ["a"], [], [], []⟩
    ((merge Css.library .null sections).report ["earlier"]).Failed (.noObject "NoneType")
      ["earlier", Sheet.Notice.message
        (.unreadableBase "EOF reached before \x7b\x7d block for a qualified rule.")] ∧
    ((merge Css.library (.object [("theme", .str "dark")]) sections).report ["earlier"]).Succeeded ∧
    (∃ outcome, convert Css.library "module.exports = \x7b\x7d" "a \x7b\x7d" = .ok outcome ∧
      (outcome.report []).Failed (.config .noConfigObject) []) ∧
    ∃ outcome, convert Css.library "export default \x7b\x7d satisfies Config" "a \x7b\x7d" =
      .ok outcome ∧ (outcome.report []).Succeeded := by
  intro sections
  have hmissing : ¬Config.HoldsConfig "module.exports = \x7b\x7d" := by decide +kernel
  have hholds : Config.HoldsConfig "export default \x7b\x7d satisfies Config" := by decide +kernel
  have hempty : Config.read "export default \x7b\x7d satisfies Config" =
      .ok ⟨.ok [], []⟩ := by decide +kernel
  have hnull := whole_or_nothing Css.library .null sections ["earlier"]
    "module.exports = \x7b\x7d" "a \x7b\x7d"
  have hobject := whole_or_nothing Css.library (.object [("theme", .str "dark")]) sections
    ["earlier"] "export default \x7b\x7d satisfies Config" "a \x7b\x7d"
  obtain ⟨found, hfound, hwhole, -⟩ := hobject.2.2 hholds
  obtain rfl := Except.ok.inj (hempty.symm.trans hfound)
  refine ⟨?_, hobject.1.2.1 ⟨_, rfl⟩, hnull.2.1 hmissing, hwhole [] rfl⟩
  have hnotices :
      (Sheet.baseRules Css.library (sections.text .base)).notices.map Sheet.Notice.message =
        [Sheet.Notice.message
          (.unreadableBase "EOF reached before \x7b\x7d block for a qualified rule.")] := by
    decide +kernel
  have hfailed := hnull.1.2.2 (by intro fields hfields; cases hfields)
  rw [hnotices] at hfailed
  exact hfailed

/-- A migration from a source with a zero of too many digits in it comes to no end. -/
theorem convert_zeros_brokenOff :
    Config.HoldsConfig (Config.exported (Config.between (Literal.zeros 4301))) ∧
      ∀ outcome, convert Css.library (Config.exported (Config.between (Literal.zeros 4301)))
        "a \x7b\x7d" ≠ .ok outcome := by
  have hread := Config.read_between_zeros (show Numeral.maxDigits < 4301 by decide)
  refine ⟨Config.exists_read_iff.1 ⟨_, hread⟩, fun outcome houtcome => ?_⟩
  rw [convert_of_brokenOff _ hread] at houtcome
  cases houtcome

end TailwindUpgrade.Migration
