/-
TailwindUpgrade/Proofs/Config/BrokenOff.lean

What breaks the reading of a configuration off.  The parts of one are read one inside another, each
prepared for faults of form, and so nothing gets through but a numeral of too many digits.  That an
attempt is broken off by nothing else (`Sturdy`) is kept by what attempts are made of each other
with.

Main results: so it is with each field of a configuration (`sturdy_field`), and with all of them
together, from whatever source they are read (`sturdy_of_read`).
-/
import TailwindUpgrade.Config.Read
import TailwindUpgrade.Proofs.Config.Entries
import TailwindUpgrade.Proofs.Literal.LongNumeral

namespace TailwindUpgrade.Config

variable {α β : Type} {attempt : Attempt α}

/-- Nothing but a long numeral breaks the reading off. -/
def Sturdy (attempt : Attempt α) : Prop := ∀ fault, attempt.value = .error fault → fault.IsLong

/-! ### One attempt and another -/

theorem sturdy_whole (found : Reported Notice α) : Sturdy (.whole found) := fun _ h => nomatch h

theorem Sturdy.map {f : α → β} (h : Sturdy attempt) : Sturdy (attempt.map f) :=
  fun fault hfault => h fault (Attempt.map_eq_error.1 hfault)

theorem Sturdy.andThen {next : α → Attempt β} (h : Sturdy attempt) (hnext : ∀ a, Sturdy (next a)) :
    Sturdy (Attempt.andThen attempt next) := by
  intro fault hfault
  rcases Attempt.andThen_eq_error.1 hfault with hfirst | ⟨a, -, hlater⟩
  · exact h fault hfirst
  · exact hnext a fault hlater

theorem sturdy_strict (label raw : Text) : Sturdy (strict label raw) := by
  intro fault hfault
  rw [strict] at hfault
  split at hfault
  · cases hfault
  · next other hread =>
    split at hfault
    · cases hfault
    · next hform =>
      obtain rfl := Except.error.inj hfault
      exact (Literal.fault_of_read hread).resolve_left hform

theorem sturdy_valueOrSource (raw : Text) {f : Value → α} :
    Sturdy (.silent ((valueOrSource raw).map f)) := by
  intro fault hfault
  rw [valueOrSource] at hfault
  split at hfault
  · cases hfault
  · next other hread =>
    split at hfault
    · cases hfault
    · next hform =>
      obtain rfl := Except.error.inj hfault
      exact (Literal.fault_of_read hread).resolve_left hform

/-- Entries are broken off by what breaks off one of them. -/
theorem sturdy_entries {attempt : Text → Text → Attempt (Option Value)}
    (h : ∀ key source, Sturdy (attempt key source)) (label raw : Text) :
    Sturdy (entries label raw attempt) := by
  intro fault hfault
  obtain ⟨entry, -, hentry⟩ := exists_entry_of_gather (fault_of_settled hfault)
  exact h _ _ fault hentry

/-! ### Parts of a configuration -/

theorem sturdy_screens (raw : Text) : Sturdy (screens raw) :=
  (sturdy_strict _ _).andThen fun _ => sturdy_whole _

theorem sturdy_typography (raw : Text) : Sturdy (typography raw) :=
  (sturdy_strict _ _).andThen fun _ => sturdy_whole _

theorem sturdy_daisy (raw : Text) : Sturdy (daisy raw) :=
  (sturdy_strict _ _).andThen fun _ => sturdy_whole _

theorem sturdy_extendField (key source : Text) : Sturdy (extendField key source) := by
  rw [extendField]
  split
  · exact (sturdy_typography source).map
  · exact sturdy_valueOrSource source

theorem sturdy_extend (raw : Text) : Sturdy (extend raw) := by
  rw [extend]
  split
  · exact (sturdy_entries sturdy_extendField _ _).map
  · exact sturdy_whole ⟨_, _⟩

theorem sturdy_themeField (key source : Text) : Sturdy (themeField key source) := by
  rw [themeField]
  split
  · exact sturdy_screens source
  · split
    · exact (sturdy_extend source).map
    · exact sturdy_valueOrSource source

theorem sturdy_theme (raw : Text) : Sturdy (theme raw) := by
  rw [theme]
  split
  · exact (sturdy_entries sturdy_themeField _ _).map
  · exact sturdy_whole ⟨_, _⟩

/-- **A field is broken off by nothing but a long numeral.** -/
theorem sturdy_field (bound : Record Text) (key source : Text) :
    Sturdy (field bound key source) := by
  rw [field]
  split
  · exact (sturdy_theme source).map
  · split
    · exact sturdy_whole _
    · split
      · exact (sturdy_daisy source).map
      · exact sturdy_valueOrSource source

/-- A configuration is broken off by nothing but a long numeral in one of its fields. -/
theorem sturdy_fields (bound : Record Text) (object : Text) : Sturdy (fields bound object) :=
  sturdy_entries (sturdy_field bound) _ _

theorem sturdy_of_read {source : Text} {found : Attempt (Record Value)}
    (h : read source = .ok found) : Sturdy found := by
  rw [read] at h
  split at h
  · cases h
  · exact Except.ok.inj h ▸ sturdy_fields _ _

end TailwindUpgrade.Config
