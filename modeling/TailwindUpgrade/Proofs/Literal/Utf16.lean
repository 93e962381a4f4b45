/-
TailwindUpgrade/Proofs/Literal/Utf16.lean

Texts and values in UTF-16.  An escape names one UTF-16 unit, so a character beyond U+FFFF can only
be escaped as its two surrogates, and these are what is read.  `Text.utf16` takes every such
character apart; two texts with the same `utf16` differ in nothing but where that was done, and two
texts of characters not even in that (`utf16_injective`).

`Value.utf16` does the same to all texts of a value, names included.
-/
import TailwindUpgrade.Literal.Value
import TailwindUpgrade.Text.Quoted

namespace TailwindUpgrade

namespace Text

/-- A text with every character beyond U+FFFF as its two surrogates. -/
def utf16 (s : Text) : Text := s.flatMap fun c => (units16 c).map .ofNat

/-- A text of characters, without surrogates. -/
def IsScalar (s : Text) : Prop := ∀ c ∈ s, c.char?.isSome = true

instance (s : Text) : Decidable (IsScalar s) :=
  inferInstanceAs (Decidable (∀ c ∈ s, c.char?.isSome = true))

theorem utf16_nil : utf16 [] = [] := rfl

theorem utf16_cons (c : CodePoint) (s : Text) :
    utf16 (c :: s) = (units16 c).map .ofNat ++ utf16 s := rfl

theorem units16_of_lt {c : CodePoint} (h : c.toNat < 0x10000) : units16 c = [c.toNat] := if_pos h

/-- A code point up to U+FFFF stays. -/
theorem utf16_cons_of_lt {c : CodePoint} (h : c.toNat < 0x10000) (s : Text) :
    utf16 (c :: s) = c :: utf16 s := by
  rw [utf16_cons, units16_of_lt h, List.map_singleton, CodePoint.ofNat_toNat]
  rfl

theorem utf16_eq_self {s : Text} (h : ∀ c ∈ s, c.toNat < 0x10000) : utf16 s = s := by
  induction s with
  | nil => rfl
  | cons c s ih =>
    rw [utf16_cons_of_lt (h c (by simp)), ih fun d hd => h d (by simp [hd])]

theorem toNat_lt (c : CodePoint) : c.toNat < 0x110000 := by
  rcases c with c | n
  · rcases c.valid with h | h <;> simp only [CodePoint.toNat, Char.toNat, UInt32.toNat] at * <;> omega
  · have := n.isLt
    simp only [CodePoint.toNat]
    omega

/-- A unit is a code point up to U+FFFF. -/
theorem toNat_ofNat_of_mem_units16 {c : CodePoint} {n : Nat} (h : n ∈ units16 c) :
    (CodePoint.ofNat n).toNat < 0x10000 := by
  have hc := toNat_lt c
  unfold units16 at h
  simp only at h
  split at h
  · next hlt =>
    obtain rfl : n = c.toNat := by simpa using h
    rw [CodePoint.ofNat_toNat]
    exact hlt
  · next hge =>
    have hrange : 0xd800 ≤ n ∧ n < 0xe000 := by
      simp only [List.mem_cons, List.not_mem_nil, or_false] at h
      omega
    rw [CodePoint.ofNat, dif_pos hrange]
    simp only [CodePoint.toNat]
    omega

/-- The first unit of a character tells it apart from others, with the second one if it is a
surrogate. -/
theorem utf16_cons_inj {c d : Char} {s t : Text}
    (h : utf16 (.char c :: s) = utf16 (.char d :: t)) : c = d ∧ utf16 s = utf16 t := by
  have hcd : ∀ {a b : Char}, a.toNat = b.toNat → a = b := Char.toNat_inj.1
  have hsurrogate : ∀ {n : Nat}, 0xd800 ≤ n ∧ n < 0xe000 →
      ∀ {a : Char}, CodePoint.ofNat n ≠ .char a := by
    intro n hn a
    rw [CodePoint.ofNat, dif_pos hn]
    exact CodePoint.noConfusion
  have hc := toNat_lt (.char c)
  have hd := toNat_lt (.char d)
  -- a unit of a character up to U+FFFF is no surrogate
  by_cases hcsmall : (CodePoint.char c).toNat < 0x10000
  · rw [utf16_cons_of_lt (c := .char c) hcsmall] at h
    by_cases hdsmall : (CodePoint.char d).toNat < 0x10000
    · rw [utf16_cons_of_lt (c := .char d) hdsmall] at h
      obtain ⟨hchar, hrest⟩ := List.cons.inj h
      exact ⟨CodePoint.char.inj hchar, hrest⟩
    · rw [utf16_cons, units16, if_neg hdsmall] at h
      exact absurd (List.cons.inj h).1.symm (hsurrogate (by omega))
  · by_cases hdsmall : (CodePoint.char d).toNat < 0x10000
    · rw [utf16_cons_of_lt (c := .char d) hdsmall, utf16_cons, units16, if_neg hcsmall] at h
      exact absurd (List.cons.inj h).1 (hsurrogate (by omega))
    · rw [utf16_cons, utf16_cons, units16, units16, if_neg hcsmall, if_neg hdsmall] at h
      obtain ⟨hhigh, h⟩ := List.cons.inj h
      obtain ⟨hlow, hrest⟩ := List.cons.inj h
      have hinj : ∀ {m n : Nat}, 0xd800 ≤ m ∧ m < 0xe000 → 0xd800 ≤ n ∧ n < 0xe000 →
          CodePoint.ofNat m = CodePoint.ofNat n → m = n := by
        intro m n hm hn hmn
        rw [CodePoint.ofNat, CodePoint.ofNat, dif_pos hm, dif_pos hn] at hmn
        have := congrArg Fin.val (CodePoint.surrogate.inj hmn)
        simp only at this
        omega
      -- the two surrogates are the quotient and the remainder of the number
      have hhigh := hinj (by omega) (by omega) hhigh
      have hlow := hinj (by omega) (by omega) hlow
      have hnumber : (CodePoint.char c).toNat = (CodePoint.char d).toNat := by omega
      exact ⟨hcd hnumber, hrest⟩

/-- Taking characters apart loses nothing of a text of characters. -/
theorem utf16_injective {s t : Text} (hs : IsScalar s) (ht : IsScalar t)
    (h : utf16 s = utf16 t) : s = t := by
  have hne : ∀ c : CodePoint, units16 c ≠ [] := by
    intro c
    unfold units16
    simp only
    split <;> simp
  induction s generalizing t with
  | nil =>
    cases t with
    | nil => rfl
    | cons d t =>
      rw [utf16_cons, utf16_nil] at h
      exact absurd (List.map_eq_nil_iff.1 (List.append_eq_nil_iff.1 h.symm).1) (hne d)
  | cons c s ih =>
    cases t with
    | nil =>
      rw [utf16_cons, utf16_nil] at h
      exact absurd (List.map_eq_nil_iff.1 (List.append_eq_nil_iff.1 h).1) (hne c)
    | cons d t =>
      -- neither text has a surrogate of its own
      obtain ⟨c, rfl⟩ : ∃ a, c = .char a := by
        cases c with
        | char a => exact ⟨a, rfl⟩
        | surrogate n => exact absurd (hs (.surrogate n) (by simp)) (by simp [CodePoint.char?])
      obtain ⟨d, rfl⟩ : ∃ a, d = .char a := by
        cases d with
        | char a => exact ⟨a, rfl⟩
        | surrogate n => exact absurd (ht (.surrogate n) (by simp)) (by simp [CodePoint.char?])
      obtain ⟨rfl, hrest⟩ := utf16_cons_inj h
      rw [ih (fun a ha => hs a (by simp [ha])) (fun a ha => ht a (by simp [ha])) hrest]

/-- A text of characters up to U+FFFF, as all names are that mean something. -/
def IsBasic (s : Text) : Prop := ∀ c ∈ s, c.char?.isSome = true ∧ c.toNat < 0x10000

instance (s : Text) : Decidable (IsBasic s) :=
  inferInstanceAs (Decidable (∀ c ∈ s, c.char?.isSome = true ∧ c.toNat < 0x10000))

theorem IsBasic.scalar {s : Text} (h : IsBasic s) : IsScalar s := fun c hc => (h c hc).1

theorem IsBasic.utf16_eq {s : Text} (h : IsBasic s) : utf16 s = s :=
  utf16_eq_self fun c hc => (h c hc).2

/-- In UTF-16, only a name itself is read as the name. -/
theorem utf16_eq_iff {s name : Text} (hs : IsScalar s) (hname : IsBasic name) :
    utf16 s = name ↔ s = name := by
  refine ⟨fun h => ?_, fun h => h ▸ hname.utf16_eq⟩
  apply utf16_injective hs hname.scalar
  rw [h, hname.utf16_eq]

end Text

/-! ### Values -/

namespace Value

mutual

/-- A value with every character beyond U+FFFF in its texts as two surrogates. -/
def utf16 : Value → Value
  | null => null
  | bool b => bool b
  | int n => int n
  | float x => float x
  | str text => str (Text.utf16 text)
  | expr source => expr source
  | array items => array (utf16Items items)
  | object fields => object (utf16Fields fields)

/-- The items of an array in UTF-16. -/
def utf16Items : List Value → List Value
  | [] => []
  | item :: rest => utf16 item :: utf16Items rest

/-- The fields of an object in UTF-16. -/
def utf16Fields : List (Text × Value) → List (Text × Value)
  | [] => []
  | (name, value) :: rest => (Text.utf16 name, utf16 value) :: utf16Fields rest

end

theorem utf16Items_eq (items : List Value) : utf16Items items = items.map utf16 := by
  induction items with
  | nil => rfl
  | cons item rest ih => rw [utf16Items, ih, List.map_cons]

theorem utf16Fields_eq (fields : List (Text × Value)) :
    utf16Fields fields = fields.map fun field => (Text.utf16 field.1, utf16 field.2) := by
  induction fields with
  | nil => rfl
  | cons field rest ih =>
    obtain ⟨name, value⟩ := field
    rw [utf16Fields, ih, List.map_cons]

/-- A name finds the same field in UTF-16. -/
theorem get?_utf16Fields {fields : List (Text × Value)} {name : Text}
    (hscalar : ∀ f ∈ fields, Text.IsScalar f.1) (hname : Text.IsBasic name) :
    Record.get? name (utf16Fields fields) = (Record.get? name fields).map utf16 := by
  induction fields with
  | nil => rfl
  | cons field rest ih =>
    obtain ⟨other, v⟩ := field
    have ih := ih fun f hf => hscalar f (by simp [hf])
    have hother : Text.utf16 other = name ↔ other = name :=
      Text.utf16_eq_iff (hscalar (other, v) (by simp)) hname
    rw [Record.get?] at ih ⊢
    rw [utf16Fields, List.lookup_cons, Record.get?, List.lookup_cons]
    by_cases h : other = name
    · subst h
      simp [hname.utf16_eq]
    · have hne : (name == other) = false := by simpa using Ne.symm h
      have hutf : (name == Text.utf16 other) = false := by simpa using Ne.symm (mt hother.1 h)
      rw [hne, hutf]
      exact ih

end Value

end TailwindUpgrade
