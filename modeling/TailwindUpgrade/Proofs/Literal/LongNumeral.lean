/-
TailwindUpgrade/Proofs/Literal/LongNumeral.lean

What a literal is not read for.  Nearly always it is the form of the text, and whoever reads
literals is prepared for that.  The one other fault is a numeral of too many digits
(`fault_of_read`): a string is begun only where its quote was found, so its reader is never left
without a text.

Such numerals there are: one that begins with enough zeros is of good form and has a finite number
near it, and still it has no value (`read_digits`, `zeros_not_read`).
-/
import TailwindUpgrade.Proofs.Literal.Excerpt
import TailwindUpgrade.Proofs.Literal.Progress
import TailwindUpgrade.Proofs.Literal.Rendering

namespace TailwindUpgrade.Literal

/-- A fault that is no fault of form: a numeral of more digits than an integer is read from. -/
def Fault.IsLong (f : Fault) : Prop :=
  ∃ digits, Numeral.maxDigits < digits ∧ f.problem = .longNumeral digits

variable {α β : Type} {n : Nat} {r : Reading α} {s : Text}

/-- A reading that fails for the form of the text or for a long numeral, if it fails. -/
def Foreseen : Reading α → Prop
  | .ok _ => True
  | .error f => f.problem.isSyntax = true ∨ f.IsLong

theorem Foreseen.fault {f : Fault} (h : Foreseen r) (hr : r = .error f) :
    f.problem.isSyntax = true ∨ f.IsLong := by
  subst hr
  exact h

theorem Foreseen.further (h : Foreseen r) : Foreseen (r.further n) := by
  rcases r with f | ⟨a, k⟩
  · exact h
  · trivial

theorem Foreseen.map {f : α → β} (h : Foreseen r) : Foreseen (r.map f) := by
  rcases r with e | ⟨a, k⟩
  · exact h
  · trivial

/-! ### Layout and marks -/

theorem comment_foreseen (s : Text) : Foreseen (comment s) := by
  unfold comment
  split
  · trivial
  · split
    · trivial
    · exact .inl rfl
  · trivial

-- by length, since a comment is skipped as a whole
theorem layout_foreseen (s : Text) : Foreseen (layout s) := by
  induction hlen : s.length using Nat.strongRecOn generalizing s with
  | ind len ih =>
    cases s with
    | nil =>
      rw [layout]
      trivial
    | cons c s =>
      rw [layout]
      split
      · exact (ih _ (length_drop_lt hlen 0) _ rfl).further
      · split
        · next f hfault => exact (comment_foreseen (c :: s)).fault hfault
        · trivial
        · next m _ => exact (ih _ (length_drop_lt hlen m) _ rfl).further

theorem peek_foreseen (s : Text) : Foreseen (peek s) := by
  rw [peek]
  split
  · next f hfault => exact (layout_foreseen s).fault hfault
  · trivial

theorem separator_foreseen (closer : CodePoint) (s : Text) : Foreseen (separator closer s) := by
  rw [separator]
  split
  · next f hfault => exact (peek_foreseen s).fault hfault
  · split_ifs
    · trivial
    · trivial
    · exact .inl rfl

theorem finish_foreseen (s : Text) : Foreseen (finish s) := by
  rw [finish]
  split
  · next f hfault => exact (peek_foreseen s).fault hfault
  · dsimp only
    split
    · next f hfault => exact (peek_foreseen _).further.fault hfault
    · exact .inl rfl
    · trivial

/-! ### Strings, expressions and keys -/

/-- A reader of strings is prepared for any text but none. -/
theorem string_foreseen (c : CodePoint) (s : Text) : Foreseen (string (c :: s)) := by
  rw [string]
  split
  · trivial
  · exact .inl rfl

theorem expressionEnd_foreseen (closers s : Text) : Foreseen (expressionEnd closers s) := by
  induction hlen : s.length using Nat.strongRecOn generalizing closers s with
  | ind len ih =>
    cases s with
    | nil =>
      cases closers with
      | nil =>
        rw [expressionEnd]
        trivial
      | cons =>
        rw [expressionEnd]
        exact .inl rfl
    | cons c s =>
      have hrest : ∀ ds m, Foreseen (expressionEnd ds (s.drop m)) :=
        fun ds m => ih _ (length_drop_lt hlen m) _ _ rfl
      rw [expressionEnd.eq_def]
      dsimp only
      split
      · -- a string
        split
        · next f hfault => exact (string_foreseen c s).fault hfault
        · exact (hrest _ _).further
      · split
        · -- a comment
          split
          · next f hfault => exact (comment_foreseen (c :: s)).fault hfault
          · exact (hrest _ _).further
        · split
          · exact (hrest _ 0).further
          · split
            · -- a closing bracket: the end, the one that is due, or another one
              split
              · trivial
              · split
                · exact (hrest _ 0).further
                · exact .inl rfl
            · split
              · trivial
              · exact (hrest _ 0).further

theorem expression_foreseen (s : Text) : Foreseen (expression s) := by
  rw [expression]
  split
  · next f hfault => exact (layout_foreseen s).fault hfault
  · next m _ =>
    dsimp only
    split
    · next f hfault =>
      show f.problem.isSyntax = true ∨ f.IsLong
      exact (expressionEnd_foreseen [] (s.drop m)).fault hfault
    · split
      · exact .inl rfl
      · trivial

theorem key_foreseen (s : Text) : Foreseen (key s) := by
  rw [key]
  split
  · next f hfault => exact (peek_foreseen s).fault hfault
  · next found n hpeek =>
    split
    · next hquote =>
      -- the quote that was found is still there
      obtain ⟨q, rfl, -⟩ := (Option.any_eq_true isQuote found).1 hquote
      obtain ⟨r, hr⟩ := exists_cons_of_peek hpeek
      rw [hr]
      exact (string_foreseen q r).further
    · split
      · trivial
      · exact .inl rfl

theorem head_foreseen (s : Text) : Foreseen (head s) := by
  rw [head]
  split
  · exact (expression_foreseen _).map.further
  · split
    · next f hfault => exact (key_foreseen s).fault hfault
    · split
      · next f hfault => exact (peek_foreseen _).further.fault hfault
      · split_ifs
        · trivial
        · trivial
        · exact .inl rfl

/-! ### Values -/

theorem long_of_expressionValue {problem : Problem} (h : expressionValue s = .error problem) :
    ∃ digits, Numeral.maxDigits < digits ∧ problem = .longNumeral digits := by
  rw [expressionValue] at h
  split_ifs at h
  split at h
  · next n _ =>
    rw [numberValue] at h
    split at h
    · split at h
      · cases h
      · next hlong => exact ⟨_, Nat.lt_of_not_le hlong, (Except.error.inj h).symm⟩
    · cases h
  · cases h

theorem bare_foreseen (s : Text) : Foreseen (bare s) := by
  rw [bare]
  split
  · next f hfault => exact (expression_foreseen s).fault hfault
  · split
    · trivial
    · next problem hvalue => exact .inr (long_of_expressionValue hvalue)

theorem quotedValue_foreseen (c : CodePoint) (s : Text) : Foreseen (quotedValue (c :: s)) := by
  rw [quotedValue]
  split
  · next f hfault => exact (string_foreseen c s).fault hfault
  · split
    · next f hfault => exact (peek_foreseen _).further.fault hfault
    · split
      · trivial
      · exact (expression_foreseen _).map

theorem delimited_foreseen {closer : CodePoint} {entry : Text → Reading α} {len : Nat}
    (hentry : ∀ x : Text, x.length ≤ len → Foreseen (entry x)) (hs : s.length ≤ len) :
    Foreseen (delimited closer entry s) := by
  induction hlen : s.length using Nat.strongRecOn generalizing s with
  | ind size ih =>
    cases s with
    | nil =>
      rw [delimited]
      split
      · next f hfault => exact (hentry [] hs).fault hfault
      · exact .inl rfl
    | cons c s =>
      rw [delimited_of_ne_nil (by simp)]
      split
      · next f hfault => exact (peek_foreseen (c :: s)).fault hfault
      · next found m _ =>
        have hfirst := hentry ((c :: s).drop m) (by rw [List.length_drop]; omega)
        split
        · trivial
        · split
          · next f hfault => exact hfirst.further.fault hfault
          · split
            · next f hfault => exact (separator_foreseen closer _).further.fault hfault
            · trivial
            · next i _ =>
              -- the other entries, behind a comma
              have hshort := length_drop_lt hlen i
              exact (ih _ hshort (by omega) rfl).map.further

theorem field_foreseen (h : ∀ x : Text, x.length ≤ s.length → Foreseen (value x)) :
    Foreseen (field s) := by
  rw [field]
  split
  · next f hfault => exact (head_foreseen s).fault hfault
  · trivial
  · trivial
  · next name m _ => exact (h (s.drop m) (by rw [List.length_drop]; omega)).map.further

theorem item_foreseen (h : ∀ x : Text, x.length ≤ s.length → Foreseen (value x)) :
    Foreseen (item s) := by
  rw [item]
  split
  · exact (expression_foreseen _).map.further
  · exact h s (Nat.le_refl _)

/-- The induction is on the length of the text, as for `value_within`. -/
theorem value_foreseen (s : Text) : Foreseen (value s) := by
  induction hlen : s.length using Nat.strongRecOn generalizing s with
  | ind len ih =>
    cases s with
    | nil =>
      rw [value]
      exact .inl rfl
    | cons c s =>
      have hinside : ∀ m, ∀ x : Text, x.length ≤ (s.drop m).length → Foreseen (value x) :=
        fun m x hx => ih _ (hx.trans_lt (length_drop_lt hlen m)) x rfl
      rw [value]
      split
      · next f hfault => exact (peek_foreseen (c :: s)).fault hfault
      · exact .inl rfl
      · next found m hpeek =>
        split
        · rw [fields_eq]
          refine (delimited_foreseen (fun x hx => ?_) (Nat.le_refl _)).map.further
          exact field_foreseen fun y hy => hinside m y (hy.trans hx)
        · split
          · rw [items_eq]
            refine (delimited_foreseen (fun x hx => ?_) (Nat.le_refl _)).map.further
            exact item_foreseen fun y hy => hinside m y (hy.trans hx)
          · split
            · obtain ⟨r, hr⟩ := exists_cons_of_peek hpeek
              rw [hr]
              exact (quotedValue_foreseen found r).further
            · exact (bare_foreseen _).further

/-- **A literal is refused for its form, or for a long numeral in it.** -/
theorem fault_of_read {f : Fault} (h : read s = .error f) : f.problem.isSyntax = true ∨ f.IsLong := by
  rw [read] at h
  split at h
  · next g hfault =>
    obtain rfl := Except.error.inj h
    exact (value_foreseen s).fault hfault
  · split at h
    · next g hfault =>
      obtain rfl := Except.error.inj h
      exact (finish_foreseen _).further.fault hfault
    · cases h

/-! ### Long numerals -/

/-- An expression that has no value is not read, and the fault lies behind it. -/
theorem read_of_expressionValue_error {e : Text} {problem : Problem} (h : IsExpression e)
    (hvalue : expressionValue e = .error problem) : read e = .error ⟨problem, e.length⟩ := by
  obtain ⟨c, r, rfl, -⟩ := h.whole.head
  have hquote : ¬ isQuote c = true := by
    intro hc
    rw [expressionValue_quote hc] at hvalue
    cases hvalue
  obtain ⟨hbrace, hbracket⟩ := h.noContainer c rfl
  have hexpression : expression (c :: r) = .ok (c :: r, (c :: r).length) := h.whole
  have hread : value (c :: r) = .error ⟨problem, (c :: r).length⟩ := by
    rw [value_of_peek (peek_solid h.whole.solid), if_neg hbrace, if_neg hbracket, if_neg hquote,
      List.drop_zero, Reading.further_zero, bare, hexpression]
    simp only [hvalue]
  rw [read, hread]

theorem Wordlike.isExpression {e : Text} (h : Wordlike e) : IsExpression e := by
  obtain ⟨c, r, rfl, hquote, hbrace, hbracket, -⟩ := h.head
  refine ⟨h.selfContained, ?_, ?_⟩
  · rintro d ⟨⟩
    exact ⟨hbrace, hbracket⟩
  · rintro q t u p hq - - hcons
    obtain ⟨rfl, -⟩ := List.cons.inj hcons
    rw [hq] at hquote
    cases hquote

/-- Digits that write an integer with a finite number near it are read as the integer if there are
few enough of them, and else they are not read. -/
theorem read_digits {w : Text} (hne : w ≠ []) (hw : ∀ c ∈ w, Text.isDigit c = true)
    (hfinite : HasFiniteNearest (Text.digitsValue w)) :
    read w =
      if w.length ≤ Numeral.maxDigits then .ok (.int (Text.digitsValue w))
      else .error ⟨.longNumeral w.length, w.length⟩ := by
  have hexpression := (wordlike_digits hne hw).isExpression
  have hvalue := expressionValue_of_read? (Numeral.read?_digits hne hw)
  rw [numberValue_digits false hfinite rfl] at hvalue
  split_ifs at hvalue ⊢
  · exact read_of_isExpression hexpression hvalue
  · exact read_of_expressionValue_error hexpression hvalue

/-- A zero that is written with any number of digits. -/
def zeros (n : Nat) : Text := List.replicate n (.char '0')

theorem isDigit_of_mem_zeros {n : Nat} : ∀ c ∈ zeros n, Text.isDigit c = true := by
  intro c hc
  rw [List.eq_of_mem_replicate hc]
  decide +kernel

theorem zeros_ne_nil {n : Nat} (hn : 0 < n) : zeros n ≠ [] := by
  rw [zeros, Ne, List.replicate_eq_nil_iff]
  omega

theorem digitsValue_zeros (n : Nat) : Text.digitsValue (zeros n) = 0 := by
  induction n with
  | zero => rfl
  | succ n ih => exact ih

theorem selfContained_zeros {n : Nat} (hn : 0 < n) : SelfContained (zeros n) :=
  (wordlike_digits (zeros_ne_nil hn) isDigit_of_mem_zeros).selfContained

/-- Zeros are read as long as there are not too many of them. -/
theorem read_zeros {n : Nat} (hn : Numeral.maxDigits < n) :
    read (zeros n) = .error ⟨.longNumeral n, n⟩ := by
  have hfinite : HasFiniteNearest (Text.digitsValue (zeros n)) := by
    rw [digitsValue_zeros]
    decide +kernel
  have hlength : (zeros n).length = n := List.length_replicate
  rw [read_digits (zeros_ne_nil (by omega)) isDigit_of_mem_zeros hfinite, hlength,
    if_neg (by omega)]

/-- So there is an integer with a finite number near it, zero, and a way to write it with nothing
but digits that is not read at all. -/
theorem zeros_not_read :
    HasFiniteNearest 0 ∧ zeros 4301 ≠ [] ∧ (∀ c ∈ zeros 4301, Text.isDigit c = true) ∧
      (0 : Int) = Text.digitsValue (zeros 4301) ∧ ∀ v, read (zeros 4301) ≠ .ok v := by
  refine ⟨by decide +kernel, zeros_ne_nil (by decide), isDigit_of_mem_zeros, ?_, ?_⟩
  · rw [digitsValue_zeros]
    rfl
  · intro v hv
    rw [read_zeros (by decide)] at hv
    cases hv

end TailwindUpgrade.Literal
