/-
TailwindUpgrade/Proofs/Text/Line.lean

Lines put together and taken apart again.  A line has no line break in it (`unbroken_of_mem_lines`),
so lines that were joined are found again where they were joined, whatever text follows them
(`lines_joinLines_append`).  Only an empty line at the very end is not, since a break at the end of
a text opens no further line (`lines_joinLines_concat`).
-/
import TailwindUpgrade.Text.Line

namespace TailwindUpgrade.Text

/-- A text without line breaks. -/
def Unbroken (s : Text) : Prop := ∀ c ∈ s, isLineBreak c = false

instance (s : Text) : Decidable (Unbroken s) :=
  inferInstanceAs (Decidable (∀ c ∈ s, isLineBreak c = false))

variable {s : Text} {ls : List Text}

/-! ### Single lines -/

theorem ne_of_not_isLineBreak {c : CodePoint} (h : isLineBreak c = false) : c ≠ .char '\r' := by
  rintro rfl
  exact absurd h (by decide)

/-- A character that is no break belongs to the first line of what follows it. -/
theorem lines_cons_of_not_break {c : CodePoint} (h : isLineBreak c = false) (s : Text) :
    lines (c :: s) =
      match lines s with
      | [] => [[c]]
      | line :: others => (c :: line) :: others := by
  have hpair : ∀ rest, c = .char '\r' → s = .char '\n' :: rest → False :=
    fun rest hc _ => ne_of_not_isLineBreak h hc
  exact (lines.eq_3 c s hpair).trans (if_neg (by simp [h]))

theorem lines_lineFeed (t : Text) : lines (.char '\n' :: t) = [] :: lines t := by
  rw [lines, if_pos (by decide)]
  intro rest h
  exact absurd h (by decide)

/-- A line ends where what follows it begins with a break. -/
theorem lines_append_break {t : Text} (h : Unbroken s) (ht : lines t = [] :: ls) :
    lines (s ++ t) = s :: ls := by
  induction s with
  | nil => exact ht
  | cons c s ih =>
    have hrest := ih fun d hd => h d (List.mem_cons_of_mem c hd)
    rw [List.cons_append, lines_cons_of_not_break (h c List.mem_cons_self), hrest]

/-- A line ends at the line feed behind it. -/
theorem lines_append_lineFeed (h : Unbroken s) (t : Text) :
    lines (s ++ .char '\n' :: t) = s :: lines t :=
  lines_append_break h (lines_lineFeed t)

/-- No line has a break in it. -/
theorem unbroken_of_mem_lines {line : Text} (h : line ∈ lines s) : Unbroken line := by
  fun_induction lines s generalizing line with
  | case1 => cases h
  | case2 rest ih =>
    -- a carriage return with its line feed
    rcases List.mem_cons.1 h with rfl | h
    · intro c hc
      cases hc
    · exact ih h
  | case3 c rest _ _ ih =>
    -- a break by itself
    rcases List.mem_cons.1 h with rfl | h
    · intro c hc
      cases hc
    · exact ih h
  | case4 c rest _ hc _ _ =>
    obtain rfl : line = [c] := by simpa using h
    intro d hd
    obtain rfl : d = c := by simpa using hd
    simpa using hc
  | case5 c rest _ hc first others hlines ih =>
    -- the first line grows by a character that is no break
    rcases List.mem_cons.1 h with rfl | h
    · intro d hd
      rcases List.mem_cons.1 hd with rfl | hd
      · simpa using hc
      · exact ih (hlines ▸ List.mem_cons_self) d hd
    · exact ih (hlines ▸ List.mem_cons_of_mem _ h)

/-! ### Breaks -/

/-- The text behind a break.  The line feed behind a carriage return belongs to the break. -/
def behindBreak : CodePoint → Text → Text
  | .char '\r', .char '\n' :: rest => rest
  | _, s => s

theorem behindBreak_eq_self {c : CodePoint}
    (h : ∀ rest, c = .char '\r' → s ≠ .char '\n' :: rest) : behindBreak c s = s := by
  unfold behindBreak
  split
  · next rest => exact absurd rfl (h rest rfl)
  · rfl

theorem length_behindBreak_le (c : CodePoint) (s : Text) :
    (behindBreak c s).length ≤ s.length := by
  unfold behindBreak
  split
  · exact Nat.le_succ _
  · exact Nat.le_refl _

theorem lines_break {c : CodePoint} (h : isLineBreak c = true) (s : Text) :
    lines (c :: s) = [] :: lines (behindBreak c s) := by
  unfold behindBreak
  split
  · exact lines.eq_2 _
  · next hpair => exact (lines.eq_3 c s hpair).trans (if_pos h)

/-- A line feed ends a line, whatever stands before it. -/
theorem exists_lines_append_lineFeed (s t : Text) :
    ∃ line ls, lines (s ++ .char '\n' :: t) = line :: (ls ++ lines t) := by
  induction s with
  | nil => exact ⟨[], [], lines_lineFeed t⟩
  | cons c s ih =>
    obtain ⟨line, ls, hlines⟩ := ih
    rw [List.cons_append]
    by_cases hc : isLineBreak c = true
    · rw [lines_break hc]
      unfold behindBreak
      split
      · next rest hrest =>
        -- the line feed belongs to the break, and would be one without the carriage return
        rw [hrest, lines_lineFeed] at hlines
        exact ⟨line, ls, hlines⟩
      · exact ⟨[], line :: ls, congrArg _ hlines⟩
    · rw [lines_cons_of_not_break (by simpa using hc), hlines]
      exact ⟨c :: line, ls, rfl⟩

/-- A text has no break, or a first one. -/
theorem unbroken_or_break (s : Text) :
    Unbroken s ∨
      ∃ line c rest, s = line ++ c :: rest ∧ Unbroken line ∧ isLineBreak c = true := by
  induction s with
  | nil => exact .inl (List.forall_mem_nil _)
  | cons c s ih =>
    by_cases hc : isLineBreak c = true
    · exact .inr ⟨[], c, s, rfl, List.forall_mem_nil _, hc⟩
    · have hc : isLineBreak c = false := by simpa using hc
      rcases ih with hs | ⟨line, d, rest, rfl, hline, hd⟩
      · exact .inl (List.forall_mem_cons.2 ⟨hc, hs⟩)
      · exact .inr ⟨c :: line, d, rest, rfl, List.forall_mem_cons.2 ⟨hc, hline⟩, hd⟩

/-! ### Joined lines -/

theorem joinLines_singleton (line : Text) : joinLines [line] = line := by
  simp [joinLines]

theorem joinLines_cons (line : Text) (h : ls ≠ []) :
    joinLines (line :: ls) = line ++ .char '\n' :: joinLines ls := by
  cases ls with
  | nil => exact absurd rfl h
  | cons other ls => simp [joinLines]

theorem joinLines_append {ls' : List Text} (h : ls ≠ []) (h' : ls' ≠ []) :
    joinLines (ls ++ ls') = joinLines ls ++ .char '\n' :: joinLines ls' := by
  induction ls with
  | nil => exact absurd rfl h
  | cons line ls ih =>
    cases ls with
    | nil =>
      rw [List.singleton_append, joinLines_cons line h', joinLines_singleton]
    | cons other ls =>
      rw [List.cons_append, joinLines_cons line (by simp), ih (by simp),
        joinLines_cons line (by simp), List.append_assoc, List.cons_append]

/-- Joined lines are found again, whatever stands behind the line feed after them. -/
theorem lines_joinLines_append (hne : ls ≠ []) (h : ∀ line ∈ ls, Unbroken line) (t : Text) :
    lines (joinLines ls ++ .char '\n' :: t) = ls ++ lines t := by
  induction ls with
  | nil => exact absurd rfl hne
  | cons line ls ih =>
    have hline : Unbroken line := h line (by simp)
    cases ls with
    | nil =>
      rw [joinLines_singleton, lines_append_lineFeed hline]
      rfl
    | cons other ls =>
      have hrest := ih (by simp) fun l hl => h l (by simp [hl])
      rw [joinLines_cons line (by simp), List.append_assoc, List.cons_append,
        lines_append_lineFeed hline, hrest]
      rfl

/-- Of joined lines only the last one may be lost, if it is empty. -/
theorem lines_joinLines_concat {last : Text} (h : ∀ line ∈ ls, Unbroken line) :
    lines (joinLines (ls ++ [last])) = ls ++ lines last := by
  cases ls with
  | nil => exact congrArg lines (joinLines_singleton last)
  | cons line ls =>
    rw [joinLines_append (by simp) (by simp), joinLines_singleton,
      lines_joinLines_append (by simp) h]

/-- Joined lines are found again, but perhaps for an empty one at the end. -/
theorem lines_joinLines (h : ∀ line ∈ ls, Unbroken line) :
    ls = lines (joinLines ls) ∨ ls = lines (joinLines ls) ++ [[]] := by
  rcases List.eq_nil_or_concat ls with rfl | ⟨init, last, rfl⟩
  · exact .inl rfl
  · rw [List.concat_eq_append] at h ⊢
    have hinit : ∀ line ∈ init, Unbroken line := fun line hline => h line (by simp [hline])
    rw [lines_joinLines_concat hinit]
    by_cases hlast : last = []
    · subst hlast
      exact .inr (by simp [lines])
    · exact .inl (by rw [lines_of_no_break hlast (h last (by simp))])

end TailwindUpgrade.Text
