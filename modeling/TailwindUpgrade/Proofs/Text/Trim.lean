/-
TailwindUpgrade/Proofs/Text/Trim.lean

What trimming takes off a text.  `AllBlank` texts are blanks from end to end, and a text is
`Trimmed` at its end if its last character is not blank.  Every text is a trimmed one with blanks
behind it, in one way only: `stripEnd_append_blanks` finds the trimmed part, and
`prefix_of_trimmed` says that it lies before the blanks even if the text was put together
otherwise.
-/
import Mathlib.Data.List.DropRight
import TailwindUpgrade.Text.Blank

namespace TailwindUpgrade.Text

/-- Blanks from end to end. -/
def AllBlank (s : Text) : Prop := ∀ c ∈ s, isBlank c = true

theorem allBlank_nil : AllBlank [] := by
  intro c hc
  cases hc

theorem allBlank_lineFeed : AllBlank [.char '\n'] := by
  intro c hc
  obtain rfl : c = .char '\n' := by simpa using hc
  decide

theorem allBlank_spaces (count : Nat) : AllBlank (spaces count) := by
  intro c hc
  rw [List.eq_of_mem_replicate hc]
  decide

theorem allBlank_append {s t : Text} : AllBlank (s ++ t) ↔ AllBlank s ∧ AllBlank t := by
  simp only [AllBlank, List.mem_append]
  constructor
  · intro h
    exact ⟨fun c hc => h c (.inl hc), fun c hc => h c (.inr hc)⟩
  · rintro ⟨hs, ht⟩ c (hc | hc)
    · exact hs c hc
    · exact ht c hc

/-- A text whose last character is not blank. -/
def Trimmed (s : Text) : Prop := ∀ c ∈ s.getLast?, isBlank c = false

theorem trimmed_concat {s : Text} {c : CodePoint} (h : isBlank c = false) : Trimmed (s ++ [c]) := by
  intro d hd
  obtain rfl : c = d := by simpa using hd
  exact h

theorem Trimmed.append {s t : Text} (ht : Trimmed t) (hne : t ≠ []) : Trimmed (s ++ t) := by
  intro c hc
  have hlast : t.getLast? = some (t.getLast hne) := List.getLast?_eq_some_getLast hne
  rw [List.getLast?_append, hlast] at hc
  exact ht c (hlast ▸ hc)

/-- Blanks behind a trimmed text hold nothing of it. -/
theorem eq_nil_of_trimmed {s b : Text} (hs : Trimmed (s ++ b)) (hb : AllBlank b) : b = [] := by
  rcases List.eq_nil_or_concat b with rfl | ⟨b', c, rfl⟩
  · rfl
  · rw [List.concat_eq_append] at hs hb
    have hblank : isBlank c = true := hb c (by simp)
    have hsolid : isBlank c = false := hs c (by simp)
    rw [hblank] at hsolid
    cases hsolid

/-- If blanks end a text that a trimmed one begins, they lie after the trimmed one. -/
theorem prefix_of_trimmed {s t p b : Text} (h : s ++ t = p ++ b) (hs : Trimmed s)
    (hb : AllBlank b) : ∃ p', p = s ++ p' ∧ t = p' ++ b := by
  rcases List.append_eq_append_iff.1 h with ⟨p', hp, ht⟩ | ⟨b', hs', hb'⟩
  · exact ⟨p', hp, ht⟩
  · subst hs' hb'
    obtain rfl := eq_nil_of_trimmed hs (allBlank_append.1 hb).1
    exact ⟨[], by simp, by simp⟩

theorem stripEnd_append_allBlank (s : Text) {b : Text} (hb : AllBlank b) :
    stripEnd (s ++ b) = stripEnd s := by
  have hrev : ∀ c ∈ b.reverse, isBlank c = true := fun c hc => hb c (by simpa using hc)
  rw [stripEnd, List.reverse_append, List.dropWhile_append_of_pos hrev, stripEnd]

theorem stripEnd_eq_self {s : Text} (h : Trimmed s) : stripEnd s = s := by
  rcases List.eq_nil_or_concat s with rfl | ⟨r, c, rfl⟩
  · rfl
  · rw [List.concat_eq_append] at h ⊢
    exact stripEnd_concat (h c (by simp))

/-- Trimming finds the trimmed part before blanks. -/
theorem stripEnd_append_blanks {s b : Text} (hs : Trimmed s) (hb : AllBlank b) :
    stripEnd (s ++ b) = s := by
  rw [stripEnd_append_allBlank s hb, stripEnd_eq_self hs]

/-- Nothing is left of blanks. -/
theorem strip_of_allBlank {b : Text} (hb : AllBlank b) : strip b = [] := by
  have hstart : stripStart b = [] := List.dropWhile_eq_nil_iff.2 hb
  rw [strip, hstart]
  rfl

/-- Every text has blanks before what is left of it without them. -/
theorem exists_stripStart (s : Text) : ∃ b, AllBlank b ∧ s = b ++ stripStart s :=
  ⟨s.takeWhile isBlank, fun _ hc => List.mem_takeWhile_imp hc,
    List.takeWhile_append_dropWhile.symm⟩

/-- Trimming the beginning first makes no difference. -/
theorem strip_stripStart (s : Text) : strip (stripStart s) = strip s := by
  rw [strip, strip, stripStart, stripStart, List.dropWhile_idempotent]

/-- Trimming finds what stands between blanks. -/
theorem strip_blanks_append {s before after : Text} (hbefore : AllBlank before)
    (hafter : AllBlank after) (hfirst : ∀ c ∈ s.head?, isBlank c = false) (hs : Trimmed s) :
    strip (before ++ (s ++ after)) = s := by
  cases s with
  | nil => exact strip_of_allBlank (allBlank_append.2 ⟨hbefore, hafter⟩)
  | cons c r =>
    have hstart : stripStart (before ++ (c :: r ++ after)) = c :: r ++ after := by
      rw [stripStart, List.dropWhile_append_of_pos hbefore]
      exact stripStart_of_not_isBlank (hfirst c rfl)
    rw [strip, hstart, stripEnd_append_blanks hs hafter]

theorem afterBlanks?_eq_some_iff {s t : Text} :
    afterBlanks? s = some t ↔ ∃ c rest, isBlank c = true ∧ s = c :: rest ∧ stripStart rest = t := by
  cases s with
  | nil => simp [afterBlanks?]
  | cons c s => by_cases hc : isBlank c = true <;> simp [afterBlanks?, hc]

/-- Every text is its trimmed part with blanks behind it. -/
theorem stripEnd_spec (s : Text) :
    ∃ b, s = stripEnd s ++ b ∧ AllBlank b ∧ Trimmed (stripEnd s) := by
  refine ⟨(s.reverse.takeWhile isBlank).reverse, ?_, ?_, ?_⟩
  · rw [stripEnd, ← List.reverse_append, List.takeWhile_append_dropWhile, List.reverse_reverse]
  · intro c hc
    rw [List.mem_reverse] at hc
    exact List.mem_takeWhile_imp hc
  · intro c hc
    rw [stripEnd, List.getLast?_reverse] at hc
    have hnot := List.head?_dropWhile_not isBlank s.reverse
    rw [Option.mem_def.1 hc] at hnot
    simpa using hnot

end TailwindUpgrade.Text
