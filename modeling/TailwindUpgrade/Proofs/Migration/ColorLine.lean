/-
TailwindUpgrade/Proofs/Migration/ColorLine.lean

Upgrading colours line by line.  A reference has no line break in it, neither the old one nor the
new one, so that what stands before a break and what stands behind it are upgraded each by itself
(`upgradeColors_append_break`).  A break may be two characters, and upgrading neither parts them nor
brings them together (`behindBreak_upgradeColors`).

Main result: a text is upgraded like the lines that it is cut into or was joined from, so it makes
no difference whether a part of the new stylesheet is upgraded as a whole or line by line
(`colors_line_by_line`).
-/
import TailwindUpgrade.Migration.Merge
import TailwindUpgrade.Proofs.Theme.ColorReference

namespace TailwindUpgrade.Theme

open Text (Unbroken isLineBreak behindBreak lines joinLines)

variable {c : CodePoint} {name : Text}

/-! ### References and breaks -/

theorem unbroken_reference (h : IsName name) : Unbroken (reference name) := by
  have hstart : Unbroken referenceStart := by decide
  have hclose : Unbroken "))" := by decide
  rw [reference]
  intro c hc
  rcases List.mem_append.1 hc with hc | hc
  · exact hstart c hc
  · rcases List.mem_append.1 hc with hc | hc
    · exact isLineBreak_of_isVariableChar (h.chars c hc)
    · exact hclose c hc

/-- No reference leads across a break. -/
theorem uncrossed_break (hc : isLineBreak c = true) (t : Text) : Uncrossed (c :: t) := by
  intro other front z rest hother hcut hback
  right
  by_contra hz
  obtain ⟨d, z, rfl⟩ := List.exists_cons_of_ne_nil hz
  obtain rfl : c = d := (List.cons.inj hback).1
  have hmem : c ∈ reference other := hcut ▸ List.mem_append_right front List.mem_cons_self
  rw [unbroken_reference hother c hmem] at hc
  cases hc

theorem reference?_break (hc : isLineBreak c = true) (t : Text) : reference? (c :: t) = none := by
  rw [Option.eq_none_iff_forall_ne_some]
  rintro ⟨other, rest⟩ hfound
  obtain ⟨-, hcut⟩ := reference?_eq_some_iff.1 hfound
  obtain rfl : c = .char 'o' := (List.cons.inj hcut).1
  exact absurd hc (by decide)

theorem Upgraded.break (hc : isLineBreak c = true) (t : Text) :
    Upgraded (c :: t) (c :: upgradeColors t) :=
  .plain (reference?_break hc t) (upgraded t)

theorem upgradeColors_break (hc : isLineBreak c = true) (t : Text) :
    upgradeColors (c :: t) = c :: upgradeColors t :=
  upgraded_iff.1 (.break hc t)

/-- What stands before a break and what stands behind it are upgraded each by itself. -/
theorem upgradeColors_append_break (hc : isLineBreak c = true) (s t : Text) :
    upgradeColors (s ++ c :: t) = upgradeColors s ++ c :: upgradeColors t :=
  upgraded_iff.1 ((upgraded s).append (uncrossed_break hc t) (.break hc t))

/-- Where a break ends is the same before and after. -/
theorem behindBreak_upgradeColors (c : CodePoint) (t : Text) :
    behindBreak c (upgradeColors t) = upgradeColors (behindBreak c t) := by
  by_cases hpair : c = .char '\r' ∧ ∃ rest, t = .char '\n' :: rest
  · obtain ⟨rfl, rest, rfl⟩ := hpair
    rw [upgradeColors_break (by decide)]
    rfl
  · have hnone : ∀ rest, c = .char '\r' → t ≠ .char '\n' :: rest := by
      intro rest hc ht
      exact hpair ⟨hc, rest, ht⟩
    rw [Text.behindBreak_eq_self hnone, Text.behindBreak_eq_self]
    -- a line feed that comes out in front was there before
    intro rest hc hout
    obtain ⟨rest', ht, -⟩ := (upgraded_iff.2 hout).exists_cons (by decide)
    exact hnone rest' hc ht

/-! ### Lines -/

theorem upgradeColors_nil : upgradeColors [] = [] := Text.Replaced.nil.eq

/-- Upgrading and cutting into lines commute. -/
theorem lines_upgradeColors (css : Text) :
    lines (upgradeColors css) = (lines css).map upgradeColors := by
  induction hlength : css.length using Nat.strong_induction_on generalizing css with
  | _ n ih =>
    rcases Text.unbroken_or_break css with hcss | ⟨line, c, rest, rfl, hline, hc⟩
    · by_cases hne : css = []
      · rw [hne, upgradeColors_nil]
        rfl
      · rw [Text.lines_of_no_break hne hcss, List.map_singleton]
        exact Text.lines_of_no_break (upgradeColors_ne_nil hne) ((upgraded css).unbroken hcss)
    · -- the first line, and what is behind its break
      have hshorter : (behindBreak c rest).length < n := by
        have := Text.length_behindBreak_le c rest
        rw [← hlength, List.length_append, List.length_cons]
        omega
      calc lines (upgradeColors (line ++ c :: rest))
          = lines (upgradeColors line ++ c :: upgradeColors rest) := by
            rw [upgradeColors_append_break hc]
        _ = upgradeColors line :: lines (behindBreak c (upgradeColors rest)) :=
            Text.lines_append_break ((upgraded line).unbroken hline) (Text.lines_break hc _)
        _ = upgradeColors line :: (lines (behindBreak c rest)).map upgradeColors := by
            rw [behindBreak_upgradeColors, ih _ hshorter _ rfl]
        _ = (lines (line ++ c :: rest)).map upgradeColors := by
            rw [Text.lines_append_break hline (Text.lines_break hc rest), List.map_cons]

/-- Upgrading and joining lines commute. -/
theorem upgradeColors_joinLines (ls : List Text) :
    upgradeColors (joinLines ls) = joinLines (ls.map upgradeColors) := by
  induction ls with
  | nil => exact upgradeColors_nil
  | cons line ls ih =>
    by_cases hne : ls = []
    · rw [hne, List.map_singleton, Text.joinLines_singleton, Text.joinLines_singleton]
    · have hmap : ls.map upgradeColors ≠ [] := mt List.map_eq_nil_iff.1 hne
      rw [List.map_cons, Text.joinLines_cons line hne, Text.joinLines_cons _ hmap,
        upgradeColors_append_break (by decide), ih]

end TailwindUpgrade.Theme

namespace TailwindUpgrade.Migration

open Theme (upgradeColors)

/-- **Colours are upgraded line by line.**  The lines of an upgraded text are the lines of the text,
each upgraded, and lines joined to a text are upgraded as each of them is.  So an at-rule of the
base layer and the body of a component class, which are upgraded whole, come to the same as the
lines of a section that is carried over, which are upgraded one by one. -/
theorem colors_line_by_line (lib : Css.Library) :
    (∀ css, Text.lines (upgradeColors css) = (Text.lines css).map upgradeColors) ∧
    (∀ ls, upgradeColors (Text.joinLines ls) = Text.joinLines (ls.map upgradeColors)) ∧
    (∀ keyword source, baseLines (.atRule keyword source) =
      (Text.lines source).map fun line => "  " ++ upgradeColors line) ∧
    (∀ name ls, componentDeclarations lib name (Text.joinLines ls) =
      Sheet.declarationsOfText lib (Text.joinLines (ls.map upgradeColors)) ("." ++ name)) ∧
    ∀ ls, Text.joinLines (carriedLines ls) =
      upgradeColors (Text.joinLines (trimBlankLines ls)) := by
  refine ⟨Theme.lines_upgradeColors, Theme.upgradeColors_joinLines, ?_, ?_, ?_⟩
  · intro keyword source
    rw [baseLines, Theme.lines_upgradeColors, List.map_map]
    rfl
  · intro name ls
    rw [componentDeclarations, Theme.upgradeColors_joinLines]
  · intro ls
    rw [carriedLines, Theme.upgradeColors_joinLines]

end TailwindUpgrade.Migration
