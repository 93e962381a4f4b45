/-
TailwindUpgrade/Proofs/Text/Match.lean

What a matcher finds in a text.  Everything that is found stands in the text, where a match begins
(`exists_of_mem_allMatches`), and nothing is found just if no match begins anywhere
(`allMatches_eq_nil_iff`).
-/
import TailwindUpgrade.Proofs.Text.Replace

namespace TailwindUpgrade.Text

variable {α : Type} {m : Matcher α} {a : α} {c : CodePoint} {s t w : Text}

theorem allMatches_nil : allMatches m [] = [] := by
  rw [allMatches, pieces]
  rfl

theorem allMatches_plain (h : m (c :: s) = none) : allMatches m (c :: s) = allMatches m s := by
  rw [allMatches, pieces_plain h]
  rfl

theorem allMatches_found (hw : w ≠ []) (h : m (w ++ s) = some (a, s)) :
    allMatches m (w ++ s) = a :: allMatches m s := by
  rw [allMatches, pieces_found hw h]
  rfl

/-- Where no match begins, nothing is found. -/
theorem allMatches_append (hnone : ∀ z, z ≠ [] → z <:+ s → m (z ++ t) = none) :
    allMatches m (s ++ t) = allMatches m t := by
  induction s with
  | nil => rfl
  | cons c s ih =>
    have hhead : m (c :: (s ++ t)) = none :=
      hnone (c :: s) (List.cons_ne_nil c s) List.suffix_rfl
    rw [List.cons_append, allMatches_plain hhead]
    apply ih
    intro z hz hsuffix
    exact hnone z hz (hsuffix.trans (List.suffix_cons c s))

/-- Where no match begins, the first one is looked for behind. -/
theorem firstMatch_append (hnone : ∀ z, z ≠ [] → z <:+ s → m (z ++ t) = none) :
    firstMatch m (s ++ t) = firstMatch m t := by
  induction s with
  | nil => rfl
  | cons c s ih =>
    have hhead : m (c :: (s ++ t)) = none :=
      hnone (c :: s) (List.cons_ne_nil c s) List.suffix_rfl
    rw [List.cons_append, firstMatch, hhead]
    apply ih
    intro z hz hsuffix
    exact hnone z hz (hsuffix.trans (List.suffix_cons c s))

/-- A word whose first character does not come again in it begins in no text before that character
and goes on with it. -/
theorem prefix_of_prefix_append {z : Text} (hc : c ∉ w) (hz : z ≠ [])
    (h : c :: w <+: z ++ c :: t) : c :: w <+: z := by
  obtain ⟨r, hr⟩ := h
  rcases List.append_eq_append_iff.1 hr with ⟨u, rfl, -⟩ | ⟨u, hw, hu⟩
  · exact List.prefix_append _ u
  · cases u with
    | nil =>
      rw [List.append_nil] at hw
      exact hw ▸ List.prefix_rfl
    | cons d u =>
      -- the character would stand in the word once more
      obtain ⟨x, z, rfl⟩ := List.exists_cons_of_ne_nil hz
      obtain rfl : c = d := (List.cons.inj hu).1
      obtain rfl : w = z ++ c :: u := (List.cons.inj hw).2
      simp at hc

/-- The first match begins somewhere in the text. -/
theorem exists_of_firstMatch {hit : α × Text} (h : firstMatch m s = some hit) :
    ∃ z, z <:+ s ∧ m z = some hit := by
  induction s with
  | nil => exact ⟨[], List.suffix_rfl, h⟩
  | cons c s ih =>
    rw [firstMatch] at h
    split at h
    · next first hfirst => exact ⟨c :: s, List.suffix_rfl, hfirst.trans h⟩
    · obtain ⟨z, hsuffix, hz⟩ := ih h
      exact ⟨z, hsuffix.trans (List.suffix_cons c s), hz⟩

theorem exists_of_mem_allMatches (hm : Takes m) (h : a ∈ allMatches m s) :
    ∃ z rest, z <:+ s ∧ m z = some (a, rest) := by
  obtain ⟨t, ht⟩ := exists_replaced hm (fun _ => []) s
  induction ht with
  | nil =>
    rw [allMatches_nil] at h
    cases h
  | @plain c s _ hnone _ ih =>
    rw [allMatches_plain hnone] at h
    obtain ⟨z, rest, hsuffix, hfound⟩ := ih h
    exact ⟨z, rest, hsuffix.trans (List.suffix_cons c s), hfound⟩
  | @found w s _ b hw hsome _ ih =>
    rw [allMatches_found hw hsome] at h
    rcases List.mem_cons.1 h with rfl | h
    · exact ⟨w ++ s, s, List.suffix_rfl, hsome⟩
    · obtain ⟨z, rest, hsuffix, hfound⟩ := ih h
      exact ⟨z, rest, hsuffix.trans (List.suffix_append w s), hfound⟩

/-- **Nothing is found just if no match begins anywhere.** -/
theorem allMatches_eq_nil_iff (hm : Takes m) :
    allMatches m s = [] ↔ ∀ z, z ≠ [] → z <:+ s → m z = none := by
  constructor
  · intro h
    induction s with
    | nil =>
      intro z hz hsuffix
      exact absurd (List.suffix_nil.1 hsuffix) hz
    | cons c s ih =>
      have hhead : m (c :: s) = none := by
        rw [Option.eq_none_iff_forall_ne_some]
        rintro ⟨a, rest⟩ hfound
        obtain ⟨w, hw, hcut⟩ := hm _ _ _ hfound
        rw [hcut] at h hfound
        rw [allMatches_found hw hfound] at h
        cases h
      rw [allMatches_plain hhead] at h
      intro z hz hsuffix
      rcases List.suffix_cons_iff.1 hsuffix with rfl | hsuffix
      · exact hhead
      · exact ih h z hz hsuffix
  · intro h
    rw [List.eq_nil_iff_forall_not_mem]
    intro a ha
    obtain ⟨z, rest, hsuffix, hfound⟩ := exists_of_mem_allMatches hm ha
    have hz : z ≠ [] := by
      rintro rfl
      obtain ⟨w, hw, hcut⟩ := hm _ _ _ hfound
      exact hw (List.append_eq_nil_iff.1 hcut.symm).1
    rw [h z hz hsuffix] at hfound
    cases hfound

/-- Where nothing is found, nothing is replaced. -/
theorem replaceMatches_of_allMatches (hm : Takes m) (f : α → Text) (h : allMatches m s = []) :
    replaceMatches m f s = s := by
  have hnone : ∀ z, z ≠ [] → z <:+ s → m (z ++ []) = none := by
    intro z hz hsuffix
    rw [List.append_nil]
    exact (allMatches_eq_nil_iff hm).1 h z hz hsuffix
  have hplains : Replaced m f (s ++ []) (s ++ []) := .plains hnone .nil
  rw [List.append_nil] at hplains
  exact hplains.eq

end TailwindUpgrade.Text
