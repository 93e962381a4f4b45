/-
TailwindUpgrade/Proofs/Config/Anchor.lean

Where an object is found.  It begins at the brace of the first export, which nothing without the
word itself can stand in the way of (`firstMatch_behind`), and goes through the last brace that the
type is named after, whatever stands in it: braces, strings and comments of its own, or the same
words once more (`objectSource?_exported`).
-/
import TailwindUpgrade.Config.Anchor
import TailwindUpgrade.Proofs.Text.Match
import TailwindUpgrade.Proofs.Text.Trim

namespace TailwindUpgrade.Config

/-! ### The beginning -/

/-- The export begins, up to the brace behind blanks. -/
theorem exportStart?_blanks {blanks : Text} (hblanks : Text.AllBlank blanks) (s : Text) :
    exportStart? (.char 'e' :: (("xport default " : Text) ++ (blanks ++ .char '\x7b' :: s))) =
      some ((), s) := by
  have hstrip :
      Text.stripStart (.char ' ' :: (blanks ++ .char '\x7b' :: s)) = .char '\x7b' :: s := by
    rw [Text.stripStart_of_isBlank rfl, Text.stripStart, List.dropWhile_append_of_pos hblanks]
    rfl
  have hbrace : Text.after? "\x7b" (.char '\x7b' :: s) = some s := rfl
  show (Text.after? "\x7b" (Text.stripStart (.char ' ' :: (blanks ++ .char '\x7b' :: s)))).bind
    (fun s => some ((), s)) = _
  rw [hstrip, hbrace]
  rfl

/-- Nothing is found before the export where its first word does not stand. -/
theorem firstMatch_behind {before : Text} (hbefore : ¬ ("export" : Text) <:+: before) (s : Text) :
    Text.firstMatch exportStart? (before ++ .char 'e' :: s) =
      Text.firstMatch exportStart? (.char 'e' :: s) := by
  apply Text.firstMatch_append
  intro z hz hsuffix
  cases hword : Text.after? "export" (z ++ .char 'e' :: s) with
  | none => rw [exportStart?, hword]; rfl
  | some rest =>
    -- the word would stand before the export
    have hprefix : ("export" : Text) <+: z ++ .char 'e' :: s :=
      ⟨rest, (Text.after?_eq_some_iff.1 hword).symm⟩
    have hinside : ("export" : Text) <+: z :=
      Text.prefix_of_prefix_append (w := ("xport" : Text)) (by decide) hz hprefix
    exact absurd (hinside.isInfix.trans hsuffix.isInfix) hbefore

theorem firstMatch_exportStart? (s : Text) :
    Text.firstMatch exportStart? (("export default " : Text) ++ .char '\x7b' :: s) =
      some ((), s) := by
  have hstart := exportStart?_blanks Text.allBlank_nil s
  rw [List.nil_append] at hstart
  show Text.firstMatch exportStart? (.char 'e' :: (("xport default " : Text) ++ _)) = _
  rw [Text.firstMatch, hstart]

/-! ### The end -/

/-- The text goes at least through a brace that the type is named after. -/
theorem exists_throughLastEnd {tail : Text} (htype : namesConfigType tail = true) (body : Text) :
    ∃ t, throughLastEnd (body ++ .char '\x7d' :: tail) = some (body ++ .char '\x7d' :: t) := by
  induction body with
  | nil =>
    rw [List.nil_append, throughLastEnd]
    cases throughLastEnd tail with
    | some t => exact ⟨t, rfl⟩
    | none => exact ⟨[], if_pos ⟨rfl, htype⟩⟩
  | cons c body ih =>
    obtain ⟨t, ht⟩ := ih
    exact ⟨t, by rw [List.cons_append, throughLastEnd, ht, List.cons_append]⟩

/-- A brace with the type after it is the last one if there is none in what follows. -/
theorem throughLastEnd_append {tail : Text} (htype : namesConfigType tail = true)
    (hlast : throughLastEnd tail = none) (body : Text) :
    throughLastEnd (body ++ .char '\x7d' :: tail) = some (body ++ [.char '\x7d']) := by
  induction body with
  | nil =>
    rw [List.nil_append, throughLastEnd, hlast]
    exact if_pos ⟨rfl, htype⟩
  | cons c body ih => rw [List.cons_append, throughLastEnd, ih, List.cons_append]

/-- The object of a source that begins with the export goes through the brace that the type is named
after. -/
theorem objectSource?_exported (tail : Text) (htype : namesConfigType tail = true)
    (hlast : throughLastEnd tail = none) (body : Text) :
    objectSource? (("export default " : Text) ++ .char '\x7b' :: (body ++ .char '\x7d' :: tail)) =
      some (.char '\x7b' :: (body ++ [.char '\x7d'])) := by
  rw [objectSource?, firstMatch_exportStart?]
  exact congrArg (Option.map _) (throughLastEnd_append htype hlast body)

end TailwindUpgrade.Config
