/-
TailwindUpgrade/Proofs/Text/Replace.lean

Replacing matches, as a relation between a text and what comes of it.  From left to right, a
character that begins no match stays, and a match gives way to what is put in its place.  For a
matcher that takes a part off the front of the text, the relation is the graph of `replaceMatches`
(`replaced_iff`), so that what holds of a replacement is shown by induction on it.
-/
import Mathlib.Data.List.Infix
import TailwindUpgrade.Text.Search

namespace TailwindUpgrade.Text

variable {α : Type} {m : Matcher α} {f : α → Text} {s t : Text}

/-! ### Pieces -/

theorem pieces_plain {c : CodePoint} (h : m (c :: s) = none) :
    pieces m (c :: s) = .plain c :: pieces m s := by
  rw [pieces, h]

theorem pieces_found {w : Text} {a : α} (hw : w ≠ []) (h : m (w ++ s) = some (a, s)) :
    pieces m (w ++ s) = .found a :: pieces m s := by
  obtain ⟨c, w, rfl⟩ := List.exists_cons_of_ne_nil hw
  have hdrop : (w ++ s).drop ((w ++ s).length - s.length) = s := by simp
  rw [List.cons_append] at h ⊢
  rw [pieces, h]
  exact congrArg (fun rest => .found a :: pieces m rest) hdrop

/-! ### Replacing -/

/-- A matcher that takes a part off the front of the text. -/
def Takes (m : Matcher α) : Prop :=
  ∀ s a rest, m s = some (a, rest) → ∃ w ≠ [], s = w ++ rest

/-- What a text becomes when its matches are replaced. -/
inductive Replaced (m : Matcher α) (f : α → Text) : Text → Text → Prop where
  | nil : Replaced m f [] []
  | plain {c : CodePoint} {s t : Text} :
    m (c :: s) = none → Replaced m f s t → Replaced m f (c :: s) (c :: t)
  | found {w s t : Text} {a : α} :
    w ≠ [] → m (w ++ s) = some (a, s) → Replaced m f s t → Replaced m f (w ++ s) (f a ++ t)

theorem Replaced.eq (h : Replaced m f s t) : replaceMatches m f s = t := by
  induction h with
  | nil =>
    rw [replaceMatches, pieces]
    rfl
  | plain hnone _ ih =>
    rw [replaceMatches, pieces_plain hnone, List.flatMap_cons]
    exact congrArg _ ih
  | found hw hsome _ ih =>
    rw [replaceMatches, pieces_found hw hsome, List.flatMap_cons]
    exact congrArg _ ih

theorem exists_replaced (hm : Takes m) (f : α → Text) (s : Text) : ∃ t, Replaced m f s t := by
  induction hlength : s.length using Nat.strong_induction_on generalizing s with
  | _ n ih =>
    cases s with
    | nil => exact ⟨[], .nil⟩
    | cons c rest =>
      cases hfound : m (c :: rest) with
      | none =>
        obtain ⟨t, ht⟩ := ih rest.length (by simp [← hlength]) rest rfl
        exact ⟨c :: t, .plain hfound ht⟩
      | some found =>
        obtain ⟨a, after⟩ := found
        obtain ⟨w, hw, hcut⟩ := hm _ _ _ hfound
        have hshorter : after.length < n := by
          rw [← hlength, hcut, List.length_append]
          have := List.length_pos_of_ne_nil hw
          omega
        obtain ⟨t, ht⟩ := ih after.length hshorter after rfl
        rw [hcut] at hfound ⊢
        exact ⟨f a ++ t, .found hw hfound ht⟩

/-- The relation is the graph of the replacement. -/
theorem replaced_iff (hm : Takes m) : Replaced m f s t ↔ replaceMatches m f s = t := by
  constructor
  · exact Replaced.eq
  · rintro rfl
    obtain ⟨t, ht⟩ := exists_replaced hm f s
    rw [ht.eq]
    exact ht

/-- Where no match begins, everything stays. -/
theorem Replaced.plains (hnone : ∀ z, z ≠ [] → z <:+ s → m (z ++ t) = none) {u : Text}
    (h : Replaced m f t u) : Replaced m f (s ++ t) (s ++ u) := by
  induction s with
  | nil => exact h
  | cons c s ih =>
    apply Replaced.plain (hnone (c :: s) (List.cons_ne_nil c s) List.suffix_rfl)
    apply ih
    intro z hz hsuffix
    exact hnone z hz (hsuffix.trans (List.suffix_cons c s))

/-- What comes out in front stood there before, or the first match that is replaced in it does. -/
theorem Replaced.front {w : Text} (h : Replaced m f s (w ++ t)) :
    (∃ s', s = w ++ s' ∧ Replaced m f s' t) ∨
      ∃ p q x a s' t', w = p ++ q ∧ q ≠ [] ∧ s = p ++ (x ++ s') ∧ m (x ++ s') = some (a, s') ∧
        q ++ t = f a ++ t' ∧ Replaced m f s' t' := by
  induction w generalizing s with
  | nil => exact .inl ⟨s, rfl, h⟩
  | cons c w ih =>
    generalize hout : c :: w ++ t = u at h
    cases h with
    | nil => cases hout
    | @plain d s _ hnone hrest =>
      obtain ⟨rfl, rfl⟩ := List.cons.inj hout
      rcases ih hrest with ⟨s', rfl, hs'⟩ | ⟨p, q, x, a, s', t', rfl, hq, rfl, hx, hout, hs'⟩
      · exact .inl ⟨s', rfl, hs'⟩
      · exact .inr ⟨c :: p, q, x, a, s', t', rfl, hq, rfl, hx, hout, hs'⟩
    | @found x s' t' a _ hx hs' =>
      exact .inr ⟨[], c :: w, x, a, s', t', rfl, List.cons_ne_nil c w, rfl, hx, hout, hs'⟩

end TailwindUpgrade.Text
