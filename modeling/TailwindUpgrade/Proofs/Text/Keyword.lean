/-
TailwindUpgrade/Proofs/Text/Keyword.lean

Matchers that wait for a keyword.  A match of such a matcher begins with one of a few words and a
blank behind it (`Keyed`).  It need not begin where a word does, so that it may be in the middle of
a word that ends with the keyword; but where a word ends with no keyword, no match begins in it
(`Passes.word`).  A text that is written in words is therefore passed over word by word, and only a
word that happens to end with a keyword has to be looked at.
-/
import TailwindUpgrade.Proofs.Text.Match
import TailwindUpgrade.Proofs.Text.Run

namespace TailwindUpgrade.Text

variable {α : Type} {m : Matcher α} {keywords : List Text} {c : CodePoint} {s t w : Text}

/-- A text without blanks. -/
def Unspaced (s : Text) : Prop := ∀ c ∈ s, isBlank c = false

instance (s : Text) : Decidable (Unspaced s) :=
  inferInstanceAs (Decidable (∀ c ∈ s, isBlank c = false))

theorem unspaced_append : Unspaced (s ++ t) ↔ Unspaced s ∧ Unspaced t := List.forall_mem_append

/-- Every match begins with a keyword and a blank. -/
structure Keyed (keywords : List Text) (m : Matcher α) : Prop where
  unspaced : ∀ keyword ∈ keywords, Unspaced keyword
  begins : ∀ s hit, m s = some hit →
    ∃ keyword ∈ keywords, ∃ c rest, isBlank c = true ∧ s = keyword ++ c :: rest

/-- No match begins in the text `s`, where `t` stands behind it. -/
def Passes (m : Matcher α) (s t : Text) : Prop := ∀ z, z ≠ [] → z <:+ s → m (z ++ t) = none

theorem Passes.nil : Passes m [] t := by
  intro z hz hsuffix
  exact absurd (List.suffix_nil.1 hsuffix) hz

theorem Passes.append (hs : Passes m s (w ++ t)) (hw : Passes m w t) : Passes m (s ++ w) t := by
  intro z hz hsuffix
  rcases List.suffix_or_suffix_of_suffix hsuffix (List.suffix_append s w) with hinside | ⟨z, rfl⟩
  · exact hw z hz hinside
  · -- the match begins before the second text
    rcases eq_or_ne z [] with rfl | hne
    · exact hw w hz List.suffix_rfl
    · rw [List.append_assoc]
      exact hs z hne ((List.suffix_append_self_iff).1 hsuffix)

/-- The word before the first blank. -/
theorem eq_of_append_blank {d : CodePoint} (hs : Unspaced s) (hw : Unspaced w)
    (hc : isBlank c = true) (hd : isBlank d = true) {x y : Text} (h : s ++ c :: x = w ++ d :: y) :
    s = w := by
  have hword : ∀ {s : Text} {c : CodePoint} {x : Text}, Unspaced s → isBlank c = true →
      (s ++ c :: x).takeWhile (fun c => !isBlank c) = s := by
    intro s c x hs hc
    apply takeWhile_append_stop
    · intro d hd
      rw [hs d hd]
      rfl
    · rintro d ⟨⟩
      rw [hc]
      rfl
  rw [← hword (x := x) hs hc, h, hword hw hd]

/-- No match begins in a word, unless it ends with a keyword that a match begins with. -/
theorem Passes.word (hm : Keyed keywords m) (hw : Unspaced w) (hc : isBlank c = true)
    (h : ∀ keyword ∈ keywords, keyword <:+ w → m (keyword ++ c :: t) = none) :
    Passes m (w ++ [c]) t := by
  intro z hz hsuffix
  rcases List.suffix_concat_iff.1 hsuffix with rfl | ⟨z, rfl, hinside⟩
  · exact absurd rfl hz
  rw [List.append_assoc, List.singleton_append]
  by_contra hfound
  obtain ⟨hit, hhit⟩ := Option.ne_none_iff_exists'.1 hfound
  obtain ⟨keyword, hkeyword, d, rest, hd, htext⟩ := hm.begins _ _ hhit
  -- the match begins with what is left of the word
  have hunspaced : Unspaced z := fun d hd => hw d (hinside.subset hd)
  obtain rfl := eq_of_append_blank hunspaced (hm.unspaced keyword hkeyword) hc hd htext
  exact hfound (h z hkeyword hinside)

/-- A word that ends with none of the keywords. -/
theorem Passes.plain (hm : Keyed keywords m) (hw : Unspaced w) (hc : isBlank c = true)
    (h : ∀ keyword ∈ keywords, ¬ keyword <:+ w) : Passes m (w ++ [c]) t :=
  .word hm hw hc fun keyword hkeyword hsuffix => absurd hsuffix (h keyword hkeyword)

/-- Words that end with none of the keywords. -/
theorem Passes.words (hm : Keyed keywords m) {ws : List Text}
    (h : ∀ w ∈ ws, Unspaced w ∧ ∀ keyword ∈ keywords, ¬ keyword <:+ w) :
    Passes m (ws.flatMap fun w => w ++ [.char ' ']) t := by
  induction ws with
  | nil => exact .nil
  | cons w ws ih =>
    obtain ⟨hw, hkeywords⟩ := h w List.mem_cons_self
    have hws := ih fun v hv => h v (List.mem_cons_of_mem w hv)
    exact .append (.plain hm hw rfl hkeywords) hws

/-- A word at the end of a text. -/
theorem Passes.last (hm : Keyed keywords m) (hw : Unspaced w) : Passes m w [] := by
  intro z hz hsuffix
  by_contra hfound
  obtain ⟨hit, hhit⟩ := Option.ne_none_iff_exists'.1 hfound
  obtain ⟨keyword, -, c, rest, hc, htext⟩ := hm.begins _ _ hhit
  rw [List.append_nil] at htext
  have hmem : c ∈ w := hsuffix.subset (htext ▸ List.mem_append_right keyword List.mem_cons_self)
  rw [hw c hmem] at hc
  cases hc

end TailwindUpgrade.Text
