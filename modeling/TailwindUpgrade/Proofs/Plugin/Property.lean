/-
TailwindUpgrade/Proofs/Plugin/Property.lean

Properties in camel case and in kebab case.  The name of a property is made of words of small
letters and digits.  In camel case nothing stands between them, and every word but the first begins
with a capital; in kebab case there are dashes between them.

A capital begins a word where a small letter or a digit stands before it, so whether a word is told
from the one before depends on how that one ends.  A word of two characters or more ends as it does
in kebab case, and the next one is found behind it (`kebabFrom_capitalized`).  A word of one letter
is nothing but its capital, and the next one goes unnoticed (`head_kebabFrom_capitalized`).

Main result: a property in camel case is put into kebab case just if no word between the first and
the last has one letter only, and one in kebab case stays as it is (`propertyName_words`).
-/
import TailwindUpgrade.Plugin.Setting
import TailwindUpgrade.Proofs.Text.Run

namespace TailwindUpgrade.Plugin

variable {c : CodePoint} {word s first : Text} {others : List Text}

/-! ### Words -/

/-- A small letter or a digit. -/
def IsSmall (c : CodePoint) : Prop := c.isLower = true ∨ c.isDigit = true

instance (c : CodePoint) : Decidable (IsSmall c) :=
  inferInstanceAs (Decidable (c.isLower = true ∨ c.isDigit = true))

/-- A word of small letters and digits. -/
structure IsWord (word : Text) : Prop where
  ne_nil : word ≠ []
  small : ∀ c ∈ word, IsSmall c

/-- A word of small letters and digits that begins with a letter, which can be made a capital. -/
structure IsLetterWord (word : Text) : Prop extends IsWord word where
  letter : ∀ c ∈ word.head?, c.isLower = true

/-- A word with its first letter made a capital. -/
def capitalized : Text → Text
  | [] => []
  | c :: rest => c.toUpper :: rest

/-- Words in camel case. -/
def camelCase (first : Text) (others : List Text) : Text := first ++ others.flatMap capitalized

/-- Words in kebab case. -/
def kebabCase (first : Text) (others : List Text) : Text := List.intercalate "-" (first :: others)

/-! ### Characters -/

theorem IsSmall.toNat_lt (h : IsSmall c) : c.toNat < 0x80 := by
  rcases c with c | n
  · simp only [IsSmall, CodePoint.isLower, CodePoint.isDigit, CodePoint.isIn, CodePoint.char?,
      Option.any_some] at h
    have hranges : (c.val ≥ 'a'.val && c.val ≤ 'z'.val) = true ∨
        (c.val ≥ '0'.val && c.val ≤ '9'.val) = true := h
    simp only [Bool.and_eq_true, decide_eq_true_eq, ge_iff_le, UInt32.le_iff_toNat_le] at hranges
    change (0x61 ≤ c.toNat ∧ c.toNat ≤ 0x7a) ∨ (0x30 ≤ c.toNat ∧ c.toNat ≤ 0x39) at hranges
    show c.toNat < 0x80
    omega
  · simp [IsSmall, CodePoint.isLower, CodePoint.isDigit, CodePoint.isIn, CodePoint.char?] at h

/-- A small letter or a digit is no capital, and a capital behind it begins a word. -/
theorem IsSmall.spec (h : IsSmall c) : c.isUpper = false ∧ endsWord c = true := by
  have hall : ∀ n < 0x80, IsSmall (.ofNat n) →
      (CodePoint.ofNat n).isUpper = false ∧ endsWord (.ofNat n) = true := by decide +kernel
  rw [← CodePoint.ofNat_toNat c] at h ⊢
  exact hall _ (CodePoint.ofNat_toNat c ▸ h.toNat_lt) h

/-- A small letter is what its capital is made, and behind the capital no word begins. -/
theorem isLower_spec (h : c.isLower = true) :
    c.toUpper.isUpper = true ∧ c.toUpper.toLower = c ∧ endsWord c.toUpper = false ∧
      c.toUpper ≠ .char '-' := by
  have hall : ∀ n < 0x80, (CodePoint.ofNat n).isLower = true →
      (CodePoint.ofNat n).toUpper.isUpper = true ∧
        (CodePoint.ofNat n).toUpper.toLower = .ofNat n ∧
        endsWord (CodePoint.ofNat n).toUpper = false ∧
        (CodePoint.ofNat n).toUpper ≠ .char '-' := by decide +kernel
  have hlt : c.toNat < 0x80 := IsSmall.toNat_lt (.inl h)
  rw [← CodePoint.ofNat_toNat c] at h ⊢
  exact hall _ (CodePoint.ofNat_toNat c ▸ hlt) h

/-! ### One word -/

/-- Behind a small letter or a digit, a word stays as it is, and ends as it began. -/
theorem kebabFrom_small (h : ∀ c ∈ word, IsSmall c) (s : Text) :
    kebabFrom true (word ++ s) = word ++ kebabFrom true s := by
  induction word with
  | nil => rfl
  | cons c word ih =>
    obtain ⟨hcapital, hends⟩ := (h c List.mem_cons_self).spec
    have hrest := ih fun d hd => h d (List.mem_cons_of_mem c hd)
    rw [List.cons_append, kebabFrom, hcapital, Bool.and_false, if_neg Bool.false_ne_true, hends,
      hrest, List.cons_append]

/-- A word stays as it is whatever stands before it, and a capital behind it begins a word. -/
theorem IsWord.kebabFrom_append (h : IsWord word) (wordBefore : Bool) (s : Text) :
    kebabFrom wordBefore (word ++ s) = word ++ kebabFrom true s := by
  obtain ⟨c, rest, rfl⟩ := List.exists_cons_of_ne_nil h.ne_nil
  obtain ⟨hcapital, hends⟩ := (h.small c List.mem_cons_self).spec
  have hrest := kebabFrom_small (fun d hd => h.small d (List.mem_cons_of_mem c hd)) s
  rw [List.cons_append, kebabFrom, hcapital, Bool.and_false, if_neg Bool.false_ne_true, hends,
    hrest, List.cons_append]

theorem IsLetterWord.exists_cons (h : IsLetterWord word) :
    ∃ c rest, word = c :: rest ∧ c.isLower = true ∧ ∀ d ∈ rest, IsSmall d := by
  obtain ⟨c, rest, rfl⟩ := List.exists_cons_of_ne_nil h.ne_nil
  exact ⟨c, rest, rfl, h.letter c rfl, fun d hd => h.small d (List.mem_cons_of_mem c hd)⟩

/-- A capital behind a word gives way to a dash and its small letter.  The next capital begins a
word just if more than the letter stands before it. -/
theorem kebabFrom_capitalized (h : IsLetterWord word) (s : Text) :
    kebabFrom true (capitalized word ++ s) =
      .char '-' :: (word ++ kebabFrom (decide (2 ≤ word.length)) s) := by
  obtain ⟨c, rest, rfl, hc, hrest⟩ := h.exists_cons
  obtain ⟨hcapital, hsmall, -, -⟩ := isLower_spec hc
  rw [capitalized, List.cons_append, kebabFrom, hcapital, Bool.and_self, if_pos rfl, hsmall]
  cases rest with
  | nil => rfl
  | cons d rest =>
    have hword : IsWord (d :: rest) := ⟨List.cons_ne_nil d rest, hrest⟩
    have hlength : 2 ≤ (c :: d :: rest).length := by simp
    rw [hword.kebabFrom_append, decide_eq_true hlength]
    rfl

/-- A capital behind a capital gets no dash. -/
theorem head_kebabFrom_capitalized (h : IsLetterWord word) (s : Text) :
    (kebabFrom false (capitalized word ++ s)).head? ≠ some (.char '-') := by
  obtain ⟨c, rest, rfl, hc, -⟩ := h.exists_cons
  rw [capitalized, List.cons_append, kebabFrom, Bool.false_and, if_neg Bool.false_ne_true]
  intro hdash
  exact (isLower_spec hc).2.2.2 (Option.some.inj hdash)

/-! ### All words -/

theorem kebabCase_eq (first : Text) (others : List Text) :
    kebabCase first others = first ++ others.flatMap (.char '-' :: ·) := by
  rw [kebabCase]
  induction others generalizing first with
  | nil => rw [List.intercalate_singleton, List.flatMap_nil, List.append_nil]
  | cons word others ih =>
    rw [List.intercalate_cons_cons, ih, List.flatMap_cons, List.append_assoc]
    rfl

/-- Behind a word, all others are found just if each that another one follows has two characters or
more. -/
theorem kebabFrom_others (h : ∀ word ∈ others, IsLetterWord word) :
    kebabFrom true (others.flatMap capitalized) = others.flatMap (.char '-' :: ·) ↔
      ∀ word ∈ others.dropLast, 2 ≤ word.length := by
  induction others with
  | nil => exact iff_of_true rfl (List.forall_mem_nil _)
  | cons word others ih =>
    have hword := h word List.mem_cons_self
    have hothers : ∀ word ∈ others, IsLetterWord word :=
      fun other hother => h other (List.mem_cons_of_mem word hother)
    rw [List.flatMap_cons, List.flatMap_cons, kebabFrom_capitalized hword, List.cons_append,
      List.cons_inj_right, List.append_cancel_left_eq]
    cases others with
    | nil => exact iff_of_true rfl (List.forall_mem_nil _)
    | cons next others =>
      rw [List.dropLast_cons_cons, List.forall_mem_cons, ← ih hothers]
      by_cases hlength : 2 ≤ word.length
      · rw [decide_eq_true hlength, and_iff_right hlength]
      · -- the next word goes unnoticed
        rw [decide_eq_false hlength, iff_false_right fun hboth => hlength hboth.1]
        intro heq
        have hhead := head_kebabFrom_capitalized (hothers next List.mem_cons_self)
          (others.flatMap capitalized)
        rw [← List.flatMap_cons, heq] at hhead
        exact hhead rfl

/-- Text without capitals stays. -/
theorem kebabFrom_eq_self (h : ∀ c ∈ s, c.isUpper = false) (wordBefore : Bool) :
    kebabFrom wordBefore s = s := by
  induction s generalizing wordBefore with
  | nil => rfl
  | cons c s ih =>
    have hrest := ih fun d hd => h d (List.mem_cons_of_mem c hd)
    rw [kebabFrom, h c List.mem_cons_self, Bool.and_false, if_neg Bool.false_ne_true, hrest]

/-- A property that begins with a word is no custom property. -/
theorem IsWord.beginsWith_dashes (h : IsWord word) (s : Text) :
    Text.beginsWith "--" (word ++ s) = false := by
  obtain ⟨c, rest, rfl⟩ := List.exists_cons_of_ne_nil h.ne_nil
  have hdash : ¬ IsSmall (.char '-') := by decide
  have hne : (.char '-' : CodePoint) ≠ c := by
    rintro rfl
    exact hdash (h.small _ List.mem_cons_self)
  show ((CodePoint.char '-' == c) && _) = false
  rw [beq_false_of_ne hne, Bool.false_and]

/-- **A property is put from camel case into kebab case just if no word between the first and the
last is a single letter.**  The capital of such a word has no small letter before the capital that
follows it, so the two are not told apart.  A property in kebab case stays as it is. -/
theorem propertyName_words (hfirst : IsWord first) (hothers : ∀ word ∈ others, IsLetterWord word) :
    (propertyName (camelCase first others) = kebabCase first others ↔
        ∀ word ∈ others.dropLast, 2 ≤ word.length) ∧
      propertyName (kebabCase first others) = kebabCase first others := by
  constructor
  · rw [kebabCase_eq, camelCase, propertyName, hfirst.beginsWith_dashes,
      if_neg Bool.false_ne_true, hfirst.kebabFrom_append, List.append_cancel_left_eq,
      kebabFrom_others hothers]
  · have hcapitals : ∀ c ∈ kebabCase first others, c.isUpper = false := by
      rw [kebabCase_eq, List.forall_mem_append]
      refine ⟨fun c hc => (hfirst.small c hc).spec.1, fun c hc => ?_⟩
      obtain ⟨word, hword, hc⟩ := List.mem_flatMap.1 hc
      rcases List.mem_cons.1 hc with rfl | hc
      · rfl
      · exact ((hothers word hword).small c hc).spec.1
    rw [propertyName, kebabFrom_eq_self hcapitals, ite_self]

/-- A single letter at the end is found, and one between other words is not. -/
theorem propertyName_words_letter :
    propertyName "2colRuleX" = "2col-rule-x" ∧ propertyName "2colXRule" ≠ "2col-x-rule" ∧
      propertyName "2col-x-rule" = "2col-x-rule" := by
  have hfirst : IsWord "2col" := ⟨by decide, by decide⟩
  have hrule : IsLetterWord "rule" := ⟨⟨by decide, by decide⟩, by decide⟩
  have hx : IsLetterWord "x" := ⟨⟨by decide, by decide⟩, by decide⟩
  have hlast : ∀ word ∈ (["rule", "x"] : List Text), IsLetterWord word :=
    List.forall_mem_cons.2 ⟨hrule, List.forall_mem_singleton.2 hx⟩
  have hinner : ∀ word ∈ (["x", "rule"] : List Text), IsLetterWord word :=
    List.forall_mem_cons.2 ⟨hx, List.forall_mem_singleton.2 hrule⟩
  refine ⟨(propertyName_words hfirst hlast).1.2 (by decide), ?_,
    (propertyName_words hfirst hinner).2⟩
  intro heq
  exact absurd ((propertyName_words hfirst hinner).1.1 heq) (by decide)

end TailwindUpgrade.Plugin
