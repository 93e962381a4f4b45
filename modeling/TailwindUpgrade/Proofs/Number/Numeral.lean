/-
TailwindUpgrade/Proofs/Number/Numeral.lean

Integers as numerals.  Digits, with or without a minus sign, are read as the numeral of those
digits (`read?_digits`, `read?_minus`), and the digits that an integer is written with have its
value (`digitsValue_natText`).  Whether the nearest floating-point number is finite does not depend
on the sign, and where it is, the integer is written with few enough digits to be read again
(`length_natText_le`).
-/
import TailwindUpgrade.Number.Numeral
import TailwindUpgrade.Proofs.Text.Run
import TailwindUpgrade.Text.Digit

namespace TailwindUpgrade

/-! ### Numerals of digits alone -/

namespace Numeral

variable {w : Text}

theorem takeWhile_digits (hw : ∀ c ∈ w, Text.isDigit c = true) : w.takeWhile Text.isDigit = w := by
  have := Text.takeWhile_append_stop (s := []) hw (by simp)
  rwa [List.append_nil] at this

theorem dropWhile_digits (hw : ∀ c ∈ w, Text.isDigit c = true) : w.dropWhile Text.isDigit = [] := by
  have := Text.dropWhile_append_stop (s := []) hw (by simp)
  rwa [List.append_nil] at this

theorem read?_minus (hne : w ≠ []) (hw : ∀ c ∈ w, Text.isDigit c = true) :
    read? (.char '-' :: w) = some ⟨true, w, none, none⟩ := by
  simp only [read?, sign, takeWhile_digits hw, dropWhile_digits hw, if_neg hne, exponent?,
    Option.map_some]

theorem sign_digits (hw : ∀ c ∈ w, Text.isDigit c = true) : sign w = (false, w) := by
  unfold sign
  split
  · exact absurd (hw (.char '-') (by simp)) (by decide +kernel)
  · exact absurd (hw (.char '+') (by simp)) (by decide +kernel)
  · rfl

theorem read?_digits (hne : w ≠ []) (hw : ∀ c ∈ w, Text.isDigit c = true) :
    read? w = some ⟨false, w, none, none⟩ := by
  simp only [read?, sign_digits hw, takeWhile_digits hw, dropWhile_digits hw, if_neg hne,
    exponent?, Option.map_some]

/-! ### The characters of numerals -/

theorem chars_of_sign (s : Text) :
    ∃ mark, s = mark ++ (sign s).2 ∧ ∀ c ∈ mark, c = .char '-' ∨ c = .char '+' := by
  unfold sign
  split
  · exact ⟨[.char '-'], rfl, by simp⟩
  · exact ⟨[.char '+'], rfl, by simp⟩
  · exact ⟨[], rfl, by simp⟩

/-- A character of a numeral: a digit, or one of its marks. -/
def IsNumeralChar (c : CodePoint) : Prop := Text.isDigit c = true ∨ c ∈ ("+-.eE" : Text)

theorem isNumeralChar_of_sign {c : CodePoint} (h : c = .char '-' ∨ c = .char '+') :
    IsNumeralChar c := by
  right
  rcases h with rfl | rfl <;> decide

theorem chars_of_exponent? {s : Text} {e : Option Int} (h : exponent? s = some e) :
    ∀ c ∈ s, IsNumeralChar c := by
  cases s with
  | nil =>
    intro c hc
    cases hc
  | cons c rest =>
    obtain ⟨mark, hrest, hmark⟩ := chars_of_sign rest
    rw [exponent?] at h
    dsimp only at h
    split at h
    · next hexponent =>
      obtain ⟨hletter, -, hdigits⟩ := hexponent
      intro d hd
      rcases List.mem_cons.1 hd with rfl | hd
      · right
        rcases hletter with rfl | rfl <;> decide
      · rw [hrest] at hd
        rcases List.mem_append.1 hd with hd | hd
        · exact isNumeralChar_of_sign (hmark d hd)
        · exact .inl (List.all_eq_true.1 hdigits d hd)
    · cases h

/-- Every character of a numeral is a digit or a mark. -/
theorem chars_of_read? {s : Text} {n : Numeral} (h : read? s = some n) :
    ∀ c ∈ s, IsNumeralChar c := by
  have hdigits : ∀ {t : Text}, ∀ c ∈ t.takeWhile Text.isDigit, IsNumeralChar c :=
    fun c hc => .inl (List.mem_takeWhile_imp hc)
  obtain ⟨mark, hs, hmark⟩ := chars_of_sign s
  have hbody := List.takeWhile_append_dropWhile (p := Text.isDigit) (l := (sign s).2)
  -- behind the sign there are digits, and then perhaps a fraction, and an exponent
  have hall : ∀ c ∈ (sign s).2, IsNumeralChar c := by
    rw [← hbody]
    intro c hc
    rcases List.mem_append.1 hc with hc | hc
    · exact hdigits c hc
    · rw [read?] at h
      dsimp only at h
      split at h
      · next rest hpoint =>
        split at h
        · cases h
        · obtain ⟨e, he, -⟩ := Option.map_eq_some_iff.1 h
          rw [hpoint, ← List.takeWhile_append_dropWhile (p := Text.isDigit) (l := rest)] at hc
          rcases List.mem_cons.1 hc with rfl | hc
          · right
            decide
          · rcases List.mem_append.1 hc with hc | hc
            · exact hdigits c hc
            · exact chars_of_exponent? he c hc
      · split at h
        · cases h
        · obtain ⟨e, he, -⟩ := Option.map_eq_some_iff.1 h
          exact chars_of_exponent? he c hc
  intro c hc
  rw [hs] at hc
  rcases List.mem_append.1 hc with hc | hc
  · exact isNumeralChar_of_sign (hmark c hc)
  · exact hall c hc

/-- No numeral begins with two points. -/
theorem read?_points (s : Text) : read? (.char '.' :: .char '.' :: s) = none := by
  have hpoint : Text.isDigit (.char '.') = false := by decide +kernel
  simp [read?, sign, hpoint]

end Numeral

/-! ### The nearest floating-point number -/

/-- The sign decides nothing about the size. -/
theorem Binary64.isFinite_ofDecimal (negative : Bool) (digits : Nat) (exponent : Int) :
    (ofDecimal negative digits exponent).isFinite = (ofDecimal false digits exponent).isFinite := by
  have hnearest : ∀ num den,
      (nearest negative num den).isFinite = (nearest false num den).isFinite := by
    intro num den
    unfold nearest
    simp only
    split_ifs <;> rfl
  unfold ofDecimal
  split_ifs
  · rfl
  · rfl
  · rfl
  · exact hnearest _ _

/-- A quotient that is far beyond the last exponent has no finite number near it. -/
theorem Binary64.log2_le_of_isFinite {negative : Bool} {num den : Nat}
    (h : (nearest negative num den).isFinite = true) :
    (Nat.log2 num : Int) - Nat.log2 den ≤ 1024 := by
  by_contra hlarge
  unfold nearest at h
  simp only at h
  rw [if_pos] at h
  · cases h
  · -- neither the choice of the exponent nor the rounding makes it less
    split_ifs <;> simp only <;> omega

/-! ### The digits of a number -/

theorem isDigit_of_mem_natText {n : Nat} : ∀ c ∈ natText n, Text.isDigit c = true := by
  intro c hc
  obtain ⟨d, hd, rfl⟩ := List.mem_map.1 hc
  have hdigit : d.isDigit = true := Nat.isDigit_of_mem_toDigits (by decide) (by decide) hd
  simp [Text.isDigit, Text.digitValue?, CodePoint.isDigit, CodePoint.isIn, CodePoint.char?, hdigit]

theorem natText_ne_nil (n : Nat) : natText n ≠ [] := by
  rw [natText, Ne, List.map_eq_nil_iff]
  exact Nat.toDigits_ne_nil

/-- The digits of a number have its value. -/
theorem digitsValue_natText (n : Nat) : Text.digitsValue (natText n) = n := by
  have hfold : ∀ (l : List Char) (k : Nat), (∀ d ∈ l, d.isDigit = true) →
      (l.map CodePoint.char).foldl (fun n c => 10 * n + (Text.digitValue? c).getD 0) k =
        Nat.ofDigitChars 10 l k := by
    intro l
    induction l with
    | nil => intro k _; rfl
    | cons d l ih =>
      intro k hl
      have hd : d.isDigit = true := hl d (by simp)
      have hvalue : Text.digitValue? (.char d) = some (d.toNat - '0'.toNat) := by
        simp [Text.digitValue?, CodePoint.isDigit, CodePoint.isIn, CodePoint.char?, hd,
          CodePoint.toNat]
      rw [List.map_cons, List.foldl_cons, hvalue, Nat.ofDigitChars_cons]
      exact ih _ fun e he => hl e (by simp [he])
  rw [Text.digitsValue, natText, hfold _ _ fun d hd =>
    Nat.isDigit_of_mem_toDigits (by decide) (by decide) hd]
  exact Nat.ofDigitChars_toDigits (by decide) (by decide)

/-- An integer with a finite number near it has no more digits than an integer is read from. -/
theorem length_natText_le {negative : Bool} {n : Nat}
    (h : (Binary64.ofDecimal negative n 0).isFinite = true) :
    (natText n).length ≤ Numeral.maxDigits := by
  rw [natText, List.length_map, Nat.length_toDigits_le_iff (by decide) (by decide)]
  by_cases hzero : n = 0
  · subst hzero
    exact Nat.pow_pos (by decide)
  · rw [Binary64.ofDecimal, if_neg hzero, if_neg (by decide), if_neg (by omega)] at h
    have hlog := Binary64.log2_le_of_isFinite h
    have hone : Nat.log2 (Nat.pow 10 (-0 : Int).toNat) = 0 := by decide
    have hten : n * Nat.pow 10 (0 : Int).toNat = n := Nat.mul_one n
    rw [hone, hten] at hlog
    have hbits : n.log2 < Numeral.maxDigits := by
      rw [Numeral.maxDigits]
      omega
    calc n < 2 ^ Numeral.maxDigits := (Nat.log2_lt hzero).1 hbits
      _ ≤ 10 ^ Numeral.maxDigits := Nat.pow_le_pow_left (by decide) _

end TailwindUpgrade
