/-
TailwindUpgrade/Proofs/Config/Cut.lean

Entries that are cut off before the rest is looked at.  Behind the opening bracket of a container
stand entries, each on a line of its own with a comma after it, and then any text at all.  The
entries come out as they were written, and what is said about the rest is what would be said about
it if no entry stood before it (`properties_append`, `elements_append`).

Main result: no value is split or joined with its neighbours, whatever brackets, quotes or comments
are in it, and no text after the entries takes one of them back (`entries_cut`).
-/
import TailwindUpgrade.Proofs.Config.Isolation
import TailwindUpgrade.Proofs.Literal.Completeness

namespace TailwindUpgrade.Config

open Literal (SelfContained ReadAs)

variable {sources : List Text}

/-- An element of an array as it stands in a source, up to the comma after it. -/
def row (source : Text) : Text := source ++ "\n"

/-- The elements of an array, with a comma after each. -/
def rows (sources : List Text) : Text := sources.flatMap fun source => row source ++ ","

/-- A row is read as its element, unless this is a spread. -/
theorem readAs_row {source : Text} (hsource : SelfContained source)
    (hdots : Literal.dots.isPrefixOf source = false) :
    ReadAs ']' Literal.rawItem source (row source) :=
  Literal.readAs_rawItem hsource hsource.trailing_lineFeed hdots

/-- The elements of an array before a text are cut off, and the text is read as if it were all that
stands behind the bracket. -/
theorem elements_append (hsources : ∀ source ∈ sources, SelfContained source)
    (hdots : ∀ source ∈ sources, Literal.dots.isPrefixOf source = false) (s : Text) :
    Literal.elements (.char '[' :: (rows sources ++ s)) =
      ⟨sources ++ (Literal.elements (.char '[' :: s)).list,
        (Literal.elements (.char '[' :: s)).fault.map (·.further (rows sources).length)⟩ :=
  Literal.rawContainer_run Literal.isCloser_bracket Literal.solid_bracket
    (fun source hsource => readAs_row (hsources source hsource) (hdots source hsource)) s

/-- **Entries are cut apart exactly, whatever follows them.**  The properties of an object that are
written on a line each, with an identifier for a key and a self-contained text for a value, are the
first that are found, in order, before anything in the text after them can stop the reading; and if
only the closing brace follows they are all, and nothing stops it.  So it is with the elements of an
array, none of them a spread. -/
theorem entries_cut {entries : List (Text × Text)}
    (hkeys : ∀ entry ∈ entries, IsIdentifier entry.1)
    (hvalues : ∀ entry ∈ entries, SelfContained entry.2)
    (hsources : ∀ source ∈ sources, SelfContained source)
    (hdots : ∀ source ∈ sources, ¬ Literal.dots <+: source) :
    (∀ s, entries <+: (Literal.properties (.char '\x7b' :: (lines entries ++ s))).list) ∧
      Literal.properties (.char '\x7b' :: (lines entries ++ [.char '\x7d'])) = ⟨entries, none⟩ ∧
      (∀ s, sources <+: (Literal.elements (.char '[' :: (rows sources ++ s))).list) ∧
      Literal.elements (.char '[' :: (rows sources ++ [.char ']'])) = ⟨sources, none⟩ := by
  have hnot : ∀ source ∈ sources, Literal.dots.isPrefixOf source = false := by
    intro source hsource
    apply Bool.eq_false_iff.2
    intro hprefix
    exact hdots source hsource (List.isPrefixOf_iff_prefix.1 hprefix)
  have harray : Literal.elements [.char '[', .char ']'] = ⟨[], none⟩ := by decide +kernel
  refine ⟨?_, properties_lines hkeys hvalues, ?_, ?_⟩
  · intro s
    rw [properties_append hkeys hvalues]
    exact List.prefix_append _ _
  · intro s
    rw [elements_append hsources hnot]
    exact List.prefix_append _ _
  · rw [elements_append hsources hnot, harray, List.append_nil]
    rfl

/-- Values that end in a line comment or hold commas, brackets and quotes of all kinds; behind them
a string and a comment that are not closed. -/
theorem entries_cut_unclosed :
    let entries : List (Text × Text) :=
      [("$colors", "f(\x7b '\x7d': \"]\" \x7d, /* \x7d, */ 1) // , \x7d"),
        ("_2", "`,$\x7bx\x7d\\``")]
    let sources : List Text := ["plugin([1, ')'], x) // ]", "'...' + [1, 2][0] /* , ] */"]
    entries <+: (Literal.properties
        (.char '\x7b' :: (lines entries ++ ", 'a: [ /* \\"))).list ∧
      Literal.properties (.char '\x7b' :: (lines entries ++ [.char '\x7d'])) = ⟨entries, none⟩ ∧
      sources <+: (Literal.elements (.char '[' :: (rows sources ++ "`$\x7b"))).list ∧
      Literal.elements (.char '[' :: (rows sources ++ [.char ']'])) = ⟨sources, none⟩ := by
  intro entries sources
  have hkeys : ∀ entry ∈ entries, IsIdentifier entry.1 := by decide +kernel
  have hvalues : ∀ entry ∈ entries, SelfContained entry.2 := by decide +kernel
  have hsources : ∀ source ∈ sources, SelfContained source := by decide +kernel
  have hdots : ∀ source ∈ sources, ¬ Literal.dots <+: source := by decide +kernel
  obtain ⟨hobject, hbrace, harray, hbracket⟩ := entries_cut hkeys hvalues hsources hdots
  exact ⟨hobject _, hbrace, harray _, hbracket⟩

end TailwindUpgrade.Config
