/-
TailwindUpgrade/Proofs/Literal/Excerpt.lean

Expressions taken out of the text in which they were found.  An expression is kept as its source and
read again later, by itself or in another text, so it has to be found there as it was found in the
first place: as all of a text, and before whatever may stop an expression (`Excerpt`).

What can go wrong is the end.  Blanks are cut off it, and with them perhaps the line feed of a line
comment, which would then go on into the text behind.  By itself the expression ends with the text,
comment or not; in another text it needs a line feed behind it.

Main result: whatever is read as an expression, from any place in any text, can be taken out of it
(`excerpts_read_again`).
-/
import TailwindUpgrade.Literal.Cursor
import TailwindUpgrade.Proofs.Literal.Absorption

namespace TailwindUpgrade.Literal

/-- The text `e` stands in the text `s`, and between two places in it. -/
def StandsBetween (e s : Text) (first last : Nat) : Prop :=
  ∃ before behind, s = before ++ (e ++ behind) ∧ first ≤ before.length ∧
    before.length + e.length ≤ last

/-- A text that can be taken for an expression out of any other: it is not empty, it begins and ends
with no blank, and it is read as the same expression from its first to its last character where it
stands alone, and up to the mark where a line feed and a mark that stops expressions follow it. -/
structure Excerpt (e : Text) : Prop where
  ne_nil : e ≠ []
  first : ∀ c ∈ e.head?, Text.isBlank c = false
  last : ∀ c ∈ e.getLast?, Text.isBlank c = false
  alone : (Cursor.start e).run expression = .ok (e, ⟨e, e.length⟩)
  stopped : ∀ mark s, mark = .char ',' ∨ isCloser mark = true →
    (Cursor.start (e ++ .char '\n' :: mark :: s)).run expression =
      .ok (e, ⟨e ++ .char '\n' :: mark :: s, e.length + 1⟩)

/-! ### Expressions in a text -/

theorem SelfContained.excerpt {e : Text} (h : SelfContained e) : Excerpt e where
  ne_nil := h.ne_nil
  first c hc := by
    obtain ⟨d, r, rfl, -⟩ := h.head
    obtain rfl : d = c := Option.some.inj hc
    exact (solid_cons_iff.1 h.solid).1
  last := h.trimmed
  alone := by
    apply Cursor.run_eq_ok_iff.2
    exact ⟨e.length, h, by rw [Cursor.start, Nat.zero_add]⟩
  stopped mark s hmark := by
    have hstops : Stops (mark :: s) := by
      rintro c ⟨⟩
      exact hmark
    have hread := expression_append .nil h h.trailing_lineFeed hstops
    apply Cursor.run_eq_ok_iff.2
    exact ⟨_, hread, by simp [Cursor.start]⟩

/-- An expression that is read from a place stands behind that place, and before the one where the
reading ended. -/
theorem standsBetween_of_run {c c' : Cursor} {e : Text} (h : c.run expression = .ok (e, c')) :
    c'.text = c.text ∧ StandsBetween e c.text c.position c'.position ∧ SelfContained e := by
  obtain ⟨n, hread, rfl⟩ := Cursor.run_eq_ok_iff.1 h
  obtain ⟨g, b, r, hahead, rfl, -, he, -⟩ := selfContained_of_expression hread
  -- there is something ahead, so the place lies in the text
  have hplace : c.position ≤ c.text.length := by
    have hlength := congrArg List.length hahead
    have hpos := List.length_pos_of_ne_nil he.ne_nil
    simp only [Cursor.ahead, List.length_drop, List.length_append] at hlength
    omega
  have hbefore : (c.text.take c.position ++ g).length = c.position + g.length := by
    rw [List.length_append, List.length_take_of_le hplace]
  refine ⟨rfl, ⟨c.text.take c.position ++ g, b ++ r, ?_, ?_, ?_⟩, he⟩
  · rw [List.append_assoc, ← hahead, Cursor.ahead, List.take_append_drop]
  · rw [hbefore]
    exact Nat.le_add_right _ _
  · rw [hbefore]
    show c.position + g.length + e.length ≤ c.position + (g.length + (e ++ b).length)
    rw [List.length_append]
    omega

/-! ### Expressions that are read as values -/

theorem isExpression_of_read {t e : Text} (h : read t = .ok (.expr e)) :
    IsExpression e ∧ expressionValue e = .ok (.expr e) := by
  have hclosed : ∀ u, ¬ Closed (.expr e) u := nofun
  obtain ⟨g, w, b, -, -, hw, hvalue, -⟩ := exists_expression_of_read h hclosed
  rcases isAtom_or_expr hvalue with hatom | hexpr
  · cases hatom
  · obtain rfl := Value.expr.inj hexpr
    exact ⟨hw, hvalue⟩

theorem read_of_isExpression {e : Text} {v : Value} (h : IsExpression e)
    (hv : expressionValue e = .ok v) : read e = .ok v := by
  have hsentence := Sentence.expression .nil h hv Text.allBlank_nil
  rw [List.nil_append, List.append_nil] at hsentence
  exact read_of_sentence hsentence

/-- **What is read as an expression can be taken out of its text.**  It stands in the text, between
the place where the reading began and the one where it ended, and is read as the same expression by
itself and before every mark that stops one.  So an expression that a text is read as is read as
itself. -/
theorem excerpts_read_again :
    (∀ c c' e, Cursor.run expression c = .ok (e, c') →
      c'.text = c.text ∧ StandsBetween e c.text c.position c'.position ∧ Excerpt e) ∧
    ∀ t e, read t = .ok (.expr e) → read e = .ok (.expr e) := by
  constructor
  · intro c c' e h
    obtain ⟨htext, hstands, he⟩ := standsBetween_of_run h
    exact ⟨htext, hstands, he.excerpt⟩
  · intro t e h
    obtain ⟨he, hvalue⟩ := isExpression_of_read h
    exact read_of_isExpression he hvalue

/-- An expression whose line comment loses its line feed, from among the fields of an object, and
one that is all of a text. -/
theorem excerpts_read_again_comment :
    Excerpt "f(x, ']') // b" ∧ read "'a' + g // b" = .ok (.expr "'a' + g // b") := by
  have hrun : Cursor.run expression ⟨"a: f(x, ']') // b\n , c", 2⟩ =
      .ok ("f(x, ']') // b", ⟨"a: f(x, ']') // b\n , c", 19⟩) := by
    apply Cursor.run_eq_ok_iff.2
    exact ⟨17, by decide +kernel, rfl⟩
  have hread : read " 'a' + g // b \n" = .ok (.expr "'a' + g // b") := by decide +kernel
  exact ⟨(excerpts_read_again.1 _ _ _ hrun).2.2, excerpts_read_again.2 _ _ hread⟩

end TailwindUpgrade.Literal
