/-
TailwindUpgrade/Proofs/Literal/Quotation.lean

Strings as a language.  `Quoted q t u` says that the text `u`, between two quotes `q`, is a string
of value `t`: character by character, each as itself or as an escape.  Five rules say what may
stand there; the last one, for a backslash before any other character, gives way to the one for
four hexadecimal digits.

Main results: what `Quoted` describes is read with that value, whatever follows the closing quote
(`string_append`), and nothing else is read (`quoted_of_string`).  Reading a string therefore looks
no further than its closing quote.
-/
import TailwindUpgrade.Literal.Quote
import TailwindUpgrade.Proofs.Text.Trim

namespace TailwindUpgrade.Literal

/-- Four hexadecimal digits. -/
def IsUnit (digits : Text) : Prop := digits.length = 4 ∧ digits.all Text.isHex = true

/-- Between two quotes `q`, the text `u` is a string of value `t`. -/
inductive Quoted (q : CodePoint) : Text → Text → Prop
  | nil : Quoted q [] []
  | raw {c : CodePoint} {t u : Text} :
      c ≠ .char '\\' → c ≠ q → (c = .char '\n' → q = .char '\x60') → Quoted q t u →
      Quoted q (c :: t) (c :: u)
  | unit {digits t u : Text} :
      IsUnit digits → Quoted q t u →
      Quoted q (.ofNat (Text.hexNumber digits) :: t) (.char '\\' :: .char 'u' :: (digits ++ u))
  | continued {t u : Text} :
      Quoted q t u → Quoted q t (.char '\\' :: .char '\n' :: u)
  | escaped {e : CodePoint} {t u : Text} :
      e ≠ .char '\n' → (e = .char 'u' → ¬ ∃ digits u', IsUnit digits ∧ u = digits ++ u') →
      Quoted q t u → Quoted q (namedEscape e :: t) (.char '\\' :: e :: u)

variable {q : CodePoint} {t u : Text}

/-! ### Escapes -/

theorem escape_unit {digits : Text} (h : IsUnit digits) (s : Text) :
    escape (.char 'u') (digits ++ s) = ([.ofNat (Text.hexNumber digits)], 4) := by
  have htake : (digits ++ s).take 4 = digits := by rw [← h.1, List.take_left]
  simp only [escape, htake, h.1, h.2, and_self, if_true]

theorem escape_lineFeed (s : Text) : escape (.char '\n') s = ([], 0) := by
  simp [escape]

theorem escape_of_ne {e : CodePoint} (hline : e ≠ .char '\n') {s : Text}
    (hunit : e = .char 'u' → ¬ IsUnit (s.take 4)) : escape e s = ([namedEscape e], 0) := by
  unfold escape
  simp only
  rw [if_neg, if_neg hline]
  rintro ⟨he, hdigits⟩
  exact hunit he hdigits

theorem isHex_of_isQuote (hq : isQuote q = true) : Text.isHex q = false := by
  simp only [isQuote, Bool.or_eq_true, beq_iff_eq] at hq
  rcases hq with (rfl | rfl) | rfl <;> decide

/-- Four digits that stand before the closing quote of a string stand in the string. -/
theorem not_isUnit_take (hq : isQuote q = true)
    (h : ¬ ∃ digits u', IsUnit digits ∧ u = digits ++ u') (s : Text) :
    ¬ IsUnit ((u ++ q :: s).take 4) := by
  intro hunit
  by_cases hlength : 4 ≤ u.length
  · rw [List.take_append_of_le_length hlength] at hunit
    exact h ⟨u.take 4, u.drop 4, hunit, (List.take_append_drop 4 u).symm⟩
  · -- the quote itself would be one of the digits
    have hmem : q ∈ (u ++ q :: s).take 4 := by
      obtain ⟨m, hm⟩ : ∃ m, 4 - u.length = m + 1 := ⟨3 - u.length, by omega⟩
      rw [List.take_append, hm]
      simp
    have hhex := List.all_eq_true.1 hunit.2 q hmem
    rw [isHex_of_isQuote hq] at hhex
    cases hhex

/-! ### Reading strings -/

theorem stringBody?_quote (h : q ≠ .char '\\') (s : Text) :
    stringBody? q (q :: s) = some ([], 1) := by
  rw [stringBody?.eq_def]
  simp only [if_neg h, if_true]

theorem stringBody?_raw {c : CodePoint} (hc : c ≠ .char '\\') (hq : c ≠ q)
    (hline : c = .char '\n' → q = .char '\x60') (s : Text) :
    stringBody? q (c :: s) = (stringBody? q s).map fun r => (c :: r.1, r.2 + 1) := by
  rw [stringBody?.eq_def]
  simp only [if_neg hc, if_neg hq]
  rw [if_neg]
  rintro ⟨hcline, hback⟩
  exact hback (hline hcline)

theorem stringBody?_escape (e : CodePoint) (s : Text) :
    stringBody? q (.char '\\' :: e :: s) =
      (stringBody? q (s.drop (escape e s).2)).map fun r =>
        ((escape e s).1 ++ r.1, r.2 + (escape e s).2 + 2) := by
  rw [stringBody?.eq_def]
  simp only [if_true]

theorem backslash_of_isQuote (hq : isQuote q = true) : q ≠ .char '\\' := by
  rintro rfl
  exact absurd hq (by decide)

/-- A string is read up to its closing quote, whatever follows it. -/
theorem stringBody?_append (hq : isQuote q = true) (h : Quoted q t u) (s : Text) :
    stringBody? q (u ++ q :: s) = some (t, u.length + 1) := by
  induction h with
  | nil => exact stringBody?_quote (backslash_of_isQuote hq) s
  | raw hc hquote hline _ ih =>
    rw [List.cons_append, stringBody?_raw hc hquote hline, ih]
    rfl
  | @unit digits t u hdigits _ ih =>
    have hdrop : (digits ++ (u ++ q :: s)).drop 4 = u ++ q :: s := by
      rw [← hdigits.1, List.drop_left]
    rw [List.cons_append, List.cons_append, List.append_assoc, stringBody?_escape,
      escape_unit hdigits]
    simp only [hdrop, ih, Option.map_some, List.singleton_append, List.length_cons,
      List.length_append, hdigits.1]
    congr 2
    omega
  | @continued t u _ ih =>
    rw [List.cons_append, List.cons_append, stringBody?_escape, escape_lineFeed, List.drop_zero, ih]
    rfl
  | @escaped e t u hline hunit _ ih =>
    have hescape := escape_of_ne hline fun he => not_isUnit_take hq (hunit he) s
    rw [List.cons_append, List.cons_append, stringBody?_escape, hescape, List.drop_zero, ih]
    rfl

theorem string_append (hq : isQuote q = true) (h : Quoted q t u) (s : Text) :
    string (q :: (u ++ q :: s)) = .ok (t, u.length + 2) := by
  rw [string, stringBody?_append hq h]

/-- A string ends in one place only. -/
theorem Quoted.append_inj {t' u' s s' : Text} (hu : Quoted q t u) (hq : isQuote q = true)
    (hu' : Quoted q t' u') (h : u ++ q :: s = u' ++ q :: s') : u = u' ∧ s = s' := by
  have hread := string_append hq hu s
  rw [h, string_append hq hu' s'] at hread
  have hlength : u.length = u'.length := by
    have := (Prod.mk.inj (Except.ok.inj hread)).2
    omega
  obtain ⟨rfl, hrest⟩ := List.append_inj h hlength
  exact ⟨rfl, (List.cons.inj hrest).2⟩

/-! ### What is read is a string -/

/-- The escapes: four digits after `u`, a line feed that is dropped, or a character by itself. -/
theorem escape_cases (e : CodePoint) (s : Text) :
    (e = .char 'u' ∧ IsUnit (s.take 4) ∧
        escape e s = ([.ofNat (Text.hexNumber (s.take 4))], 4)) ∨
      (e = .char '\n' ∧ escape e s = ([], 0)) ∨
      (e ≠ .char '\n' ∧ (e = .char 'u' → ¬ IsUnit (s.take 4)) ∧
        escape e s = ([namedEscape e], 0)) := by
  by_cases hunit : e = .char 'u' ∧ IsUnit (s.take 4)
  · refine .inl ⟨hunit.1, hunit.2, ?_⟩
    have := escape_unit hunit.2 (s.drop 4)
    rwa [List.take_append_drop, ← hunit.1] at this
  · by_cases hline : e = .char '\n'
    · subst hline
      exact .inr (.inl ⟨rfl, escape_lineFeed s⟩)
    · have hnot : e = .char 'u' → ¬ IsUnit (s.take 4) := fun he hu => hunit ⟨he, hu⟩
      exact .inr (.inr ⟨hline, hnot, escape_of_ne hline hnot⟩)

theorem quoted_of_stringBody? {s : Text} {n : Nat} (h : stringBody? q s = some (t, n)) :
    ∃ u r, s = u ++ q :: r ∧ n = u.length + 1 ∧ Quoted q t u := by
  induction hlen : s.length using Nat.strongRecOn generalizing s t n with
  | ind len ih =>
    cases s with
    | nil => simp [stringBody?] at h
    | cons c s =>
      by_cases hc : c = .char '\\'
      · subst hc
        cases s with
        | nil => simp [stringBody?] at h
        | cons e s =>
          rw [stringBody?_escape] at h
          obtain ⟨⟨t, m⟩, hread, heq⟩ := Option.map_eq_some_iff.1 h
          obtain ⟨u, r, hs, rfl, hu⟩ := ih (s.drop (escape e s).2).length (by
            rw [← hlen, List.length_cons, List.length_cons, List.length_drop]
            omega) hread rfl
          obtain ⟨rfl, rfl⟩ := Prod.mk.inj heq
          rcases escape_cases e s with ⟨rfl, hunit, hescape⟩ | ⟨rfl, hescape⟩ | ⟨hline, hunit, hescape⟩
          · -- the four digits of a unit are skipped with it
            rw [hescape] at hs ⊢
            refine ⟨.char '\\' :: .char 'u' :: (s.take 4 ++ u), r, ?_, ?_, .unit hunit hu⟩
            · rw [List.cons_append, List.cons_append, List.append_assoc, ← hs,
                List.take_append_drop]
            · simp only [List.length_cons, List.length_append, hunit.1]
              omega
          · rw [hescape] at hs ⊢
            rw [List.drop_zero] at hs
            exact ⟨_, r, by rw [hs]; rfl, by simp, .continued hu⟩
          · -- any other escape, a unit that is none among them
            rw [hescape] at hs ⊢
            rw [List.drop_zero] at hs
            refine ⟨.char '\\' :: e :: u, r, by rw [hs]; rfl, by simp, .escaped hline ?_ hu⟩
            rintro rfl ⟨digits, u', hdigits, rfl⟩
            apply hunit rfl
            rwa [hs, List.append_assoc, ← hdigits.1, List.take_left]
      · by_cases hquote : c = q
        · subst hquote
          rw [stringBody?_quote hc] at h
          obtain ⟨rfl, rfl⟩ := Prod.mk.inj (Option.some.inj h)
          exact ⟨[], s, rfl, rfl, .nil⟩
        · by_cases hline : c = .char '\n' → q = .char '\x60'
          · rw [stringBody?_raw hc hquote hline] at h
            obtain ⟨⟨t, m⟩, hread, heq⟩ := Option.map_eq_some_iff.1 h
            obtain ⟨u, r, rfl, rfl, hu⟩ := ih _ (by simp [← hlen]) hread rfl
            obtain ⟨rfl, rfl⟩ := Prod.mk.inj heq
            exact ⟨c :: u, r, rfl, rfl, .raw hc hquote hline hu⟩
          · -- the line ends inside of the string
            have hend : c = .char '\n' ∧ q ≠ .char '\x60' := Classical.not_imp.1 hline
            rw [stringBody?.eq_def] at h
            simp only [if_neg hc, if_neg hquote, if_pos hend] at h
            cases h

/-- A string that is read is one by the rules, up to its closing quote. -/
theorem quoted_of_string {s : Text} {n : Nat} (h : string s = .ok (t, n)) :
    ∃ q u r, s = q :: (u ++ q :: r) ∧ n = u.length + 2 ∧ Quoted q t u := by
  cases s with
  | nil => cases h
  | cons q s =>
    rw [string] at h
    split at h
    · next hread =>
      obtain ⟨u, r, rfl, rfl, hu⟩ := quoted_of_stringBody? hread
      obtain ⟨rfl, rfl⟩ := Prod.mk.inj (Except.ok.inj h)
      exact ⟨q, u, r, rfl, rfl, hu⟩
    · cases h

end TailwindUpgrade.Literal
