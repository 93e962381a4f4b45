/-
TailwindUpgrade/Proofs/Literal/Absorption.lean

Comments behind keywords and numbers.  Layout is skipped between tokens, and behind a string, an
array or an object, which end by themselves.  A keyword or a number is an expression that happens to
be written like one, and an expression ends only before a comma or a bracket.  A comment behind it
belongs to it, so that what is read is no keyword and no number any more.

Main results: an atom with a comment behind it is an expression (`absorbed_bare`), and is read as
one, by itself and at every place in a literal where the atom would have been read
(`read_absorbed`).
-/
import TailwindUpgrade.Proofs.Literal.Agreement
import TailwindUpgrade.Proofs.Literal.Place
import TailwindUpgrade.Proofs.Number.Numeral

namespace TailwindUpgrade.Literal

variable {v : Value} {w g : Text}

/-! ### Atoms -/

/-- A text that is a keyword or a numeral. -/
def IsWord (w : Text) : Prop :=
  w ∈ [("true" : Text), "false", "null", "undefined"] ∨ ∃ n, Numeral.read? w = some n

/-- A character that keywords and numerals are made of. -/
def IsAtomChar (c : CodePoint) : Prop :=
  Text.isKeyPart c = true ∨ c = .char '-' ∨ c = .char '+'

/-- Such a character means nothing to an expression. -/
theorem IsAtomChar.spec {c : CodePoint} (h : IsAtomChar c) :
    IsPlain c ∧ c ≠ .char '/' ∧ c ≠ .char ',' := by
  rcases h with hpart | rfl | rfl
  · obtain ⟨hplain, hslash, hcomma, -⟩ := isKeyPart_spec hpart
    exact ⟨hplain, hslash, hcomma⟩
  · exact ⟨⟨rfl, rfl, rfl⟩, by decide, by decide⟩
  · exact ⟨⟨rfl, rfl, rfl⟩, by decide, by decide⟩

theorem isAtomChar_of_isNumeralChar {c : CodePoint} (h : Numeral.IsNumeralChar c) :
    IsAtomChar c := by
  rcases h with hdigit | hmark
  · left
    simp [Text.isKeyPart, hdigit]
  · have hmarks : ∀ d ∈ ("+-.eE" : Text),
        Text.isKeyPart d = true ∨ d = .char '-' ∨ d = .char '+' := by decide +kernel
    exact hmarks c hmark

/-- An expression that is neither a keyword nor a numeral has itself for a value. -/
theorem isWord_or_expr (w : Text) : IsWord w ∨ expressionValue w = .ok (.expr w) := by
  rw [expressionValue]
  split_ifs with htrue hfalse hnull
  · exact .inl (.inl (by simp [htrue]))
  · exact .inl (.inl (by simp [hfalse]))
  · exact .inl (.inl (by rcases hnull with rfl | rfl <;> simp))
  · split
    · next n hn => exact .inl (.inr ⟨n, hn⟩)
    · exact .inr rfl

/-- An expression is an atom only if it is a keyword or a numeral. -/
theorem isWord_of_isAtom (h : expressionValue w = .ok v) (hv : IsAtom v) : IsWord w := by
  rcases isWord_or_expr w with hw | hexpr
  · exact hw
  · rw [Except.ok.inj (h.symm.trans hexpr)] at hv
    cases hv

theorem IsWord.chars (h : IsWord w) : ∀ c ∈ w, IsAtomChar c := by
  rcases h with hword | ⟨n, hn⟩
  · have hwords : ∀ k ∈ [("true" : Text), "false", "null", "undefined"],
        ∀ c ∈ k, Text.isKeyPart c = true := by decide +kernel
    intro c hc
    exact .inl (hwords w hword c hc)
  · intro c hc
    exact isAtomChar_of_isNumeralChar (Numeral.chars_of_read? hn c hc)

/-- A keyword or a numeral is no spread expression. -/
theorem IsWord.not_dots (h : IsWord w) : dots.isPrefixOf w = false := by
  rcases h with hword | ⟨n, hn⟩
  · have hwords : ∀ k ∈ [("true" : Text), "false", "null", "undefined"],
        dots.isPrefixOf k = false := by decide +kernel
    exact hwords w hword
  · by_contra hdots
    rw [Bool.not_eq_false] at hdots
    obtain ⟨r, rfl⟩ := List.isPrefixOf_iff_prefix.1 hdots
    have hnone : Numeral.read? (dots ++ r) = none := Numeral.read?_points (.char '.' :: r)
    rw [hnone] at hn
    cases hn

/-- What is read as an atom is its expression, with layout before it and blanks behind it. -/
theorem exists_atom_of_read {e : Text} (h : read e = .ok v) (hv : IsAtom v) :
    ∃ g w b, e = g ++ (w ++ b) ∧ Gap g ∧ IsExpression w ∧ expressionValue w = .ok v ∧
      Text.AllBlank b := by
  apply exists_expression_of_read h
  intro u hu
  cases hu with
  | string _ _ => cases hv
  | array _ _ => cases hv
  | object _ _ => cases hv

/-! ### Atoms with layout behind them -/

theorem IsWord.balanced_append (hword : IsWord w) (hg : Gap g) : Balanced [] (w ++ g) := by
  have hgap : Balanced [] g := List.append_nil g ▸ Balanced.gap hg .nil
  exact hgap.plains fun c hc => (hword.chars c hc).spec

/-- What stands behind an atom does not go on with its dots. -/
theorem point_of_gap (hg : Gap g) : ∀ c ∈ g.head?, c ≠ .char '.' := by
  have hends : EndsKey (g ++ []) := hg.endsKey fun c hc => by cases hc
  rw [List.append_nil] at hends
  rintro c hc rfl
  have hpart := hends _ hc
  exact absurd hpart (by decide +kernel)

/-- **A comment behind an atom is absorbed.** Layout with a comment in it makes an atom into an
expression that ends with the comment; only blanks behind it are left. -/
theorem absorbed_bare (hw : IsExpression w) (hword : IsWord w) (hg : Gap g)
    (hslash : .char '/' ∈ g) :
    ∃ b, w ++ g = Text.stripEnd (w ++ g) ++ b ∧
      Bare (.expr (Text.stripEnd (w ++ g))) (Text.stripEnd (w ++ g)) ∧
      Trailing (Text.stripEnd (w ++ g)) b ∧
      dots.isPrefixOf (Text.stripEnd (w ++ g)) = false := by
  obtain ⟨b, hsplit, hb, htrimmed⟩ := Text.stripEnd_spec (w ++ g)
  obtain ⟨p, hsource, hgp⟩ := Text.prefix_of_trimmed hsplit hw.whole.trimmed hb
  have hbalanced := hword.balanced_append hg
  obtain ⟨c, r, rfl, -⟩ := hw.whole.head
  have hc : IsAtomChar c := hword.chars c List.mem_cons_self
  generalize Text.stripEnd (c :: r ++ g) = source at hsplit htrimmed hsource ⊢
  rw [hsplit] at hbalanced
  -- the slash of the comment is not cut off
  have hkept : .char '/' ∈ source := by
    have hmem : .char '/' ∈ source ++ b := hsplit ▸ List.mem_append_right (c :: r) hslash
    rcases List.mem_append.1 hmem with hmem | hmem
    · exact hmem
    · exact absurd (hb _ hmem) (by decide)
  have hsolid : Solid source := by
    rw [hsource]
    exact solid_cons (solid_cons_iff.1 hw.whole.solid).1 hc.spec.2.1
  have hself : SelfContained source :=
    selfContained_of_balanced (by simp [hsource]) hsolid htrimmed hb hbalanced
  have hvalue : expressionValue source = .ok (.expr source) := by
    rcases isWord_or_expr source with hword' | hexpr
    · exact absurd rfl (hword'.chars _ hkept).spec.2.1
    · exact hexpr
  refine ⟨b, hsplit, ?_, ⟨hb, hbalanced⟩, ?_⟩
  · refine .word hself ?_ hvalue
    intro d hd
    obtain rfl : c = d := by simpa [hsource] using hd
    exact ⟨hc.spec.1.1, hw.noContainer c rfl⟩
  · rw [hsource]
    apply dots_isPrefixOf_append hword.not_dots (List.cons_ne_nil c r)
    intro d hd
    exact point_of_gap hg d (by
      rw [hgp]
      cases p with
      | nil => cases hd
      | cons e p => exact hd)

/-! ### Comments behind atoms -/

/-- The text behind the layout that it begins with. -/
def fromToken (s : Text) : Text :=
  match layout s with
  | .ok ((), n) => s.drop n
  | .error _ => s

theorem fromToken_append {s : Text} (hg : Gap g) (hs : Solid s) : fromToken (g ++ s) = s := by
  rw [fromToken, layout_append hg, hs]
  exact List.drop_left

/-- **A comment behind an atom is taken for a part of it.** Where a keyword or a number is read, by
itself or at a place in a literal, a comment between it and what ends it changes what is read: it is
an expression then, whose source goes from the atom through the comment. -/
theorem read_absorbed {e c : Text} (he : read e = .ok v) (hv : IsAtom v) (hc : Comment c) :
    read (e ++ .char ' ' :: c) =
        .ok (.expr (Text.stripEnd (fromToken e ++ .char ' ' :: c))) ∧
    ∀ f pre post front tail, Place f pre post → Gap front → Tail tail →
      read (front ++ ((pre ++ (e ++ post)) ++ tail)) = .ok (f v) ∧
      read (front ++ ((pre ++ ((e ++ .char ' ' :: c) ++ post)) ++ tail)) =
        .ok (f (.expr (Text.stripEnd (fromToken e ++ .char ' ' :: c)))) := by
  obtain ⟨g, w, b, rfl, hg, hw, hvalue, hb⟩ := exists_atom_of_read he hv
  have hword := isWord_of_isAtom hvalue hv
  have hsolid : Solid (w ++ b) := hw.whole.solid.append hw.whole.ne_nil (apart_of_blanks hb)
  have hgap : Gap (b ++ .char ' ' :: c) := by
    have hcomment := Gap.comment hc .nil
    rw [List.append_nil] at hcomment
    exact (Gap.of_allBlank hb).append (.blank (by decide) hcomment)
  have hslash : .char '/' ∈ b ++ .char ' ' :: c := by
    obtain ⟨k, rfl⟩ := hc.head
    simp
  obtain ⟨b', hsplit, hbare, htrailing, hdots⟩ := absorbed_bare hw hword hgap hslash
  rw [fromToken_append hg hsolid, List.append_assoc w b]
  generalize Text.stripEnd (w ++ (b ++ .char ' ' :: c)) = source at hsplit hbare htrailing hdots ⊢
  have hwith : (g ++ (w ++ b)) ++ .char ' ' :: c = g ++ (source ++ b') := by
    rw [← hsplit]
    simp only [List.append_assoc]
  constructor
  · rw [hwith]
    apply read_of_sentence
    obtain ⟨hexpr, habsorbed⟩ := bare_iff.1 hbare
    exact .expression hg hexpr habsorbed htrailing.1
  · intro f pre post front tail hplace hfront htail
    have hshift : ∀ x, pre ++ ((g ++ x) ++ post) = (pre ++ g) ++ (x ++ post) := by
      intro x
      simp only [List.append_assoc]
    have hatom : PlacedValue Closed v w (w ++ b) :=
      .bare (bare_iff.2 ⟨hw, hvalue⟩) ⟨hb, hword.balanced_append (.of_allBlank hb)⟩
    constructor
    · rw [hshift]
      exact (hplace.gap hg).read hfront htail hatom hword.not_dots
    · rw [hwith, hshift]
      exact (hplace.gap hg).read hfront htail (.bare hbare htrailing) hdots

/-- A number with a comment behind it, by itself and in an array in an array. -/
theorem read_absorbed_one :
    read (("1" : Text) ++ .char ' ' :: "/* c */") = .ok (.expr "1 /* c */") ∧
      read "[[1]]" = .ok (.array [.array [.int 1]]) ∧
      read "[[1 /* c */]]" = .ok (.array [.array [.expr "1 /* c */"]]) := by
  have hone : read "1" = .ok (.int 1) := by decide +kernel
  have hcomment : Comment "/* c */" :=
    .block (show ¬[.char '*', .char '/'] <:+: (" c " : Text) by decide)
  have hlist : Place (fun v => .array [v]) "[" "]" :=
    Place.item (Hole.last Gap.nil)
  have hsource : Text.stripEnd (fromToken "1" ++ .char ' ' :: ("/* c */" : Text)) =
      "1 /* c */" := by decide +kernel
  obtain ⟨halone, hplaces⟩ := read_absorbed hone (.int 1) hcomment
  obtain ⟨hplain, habsorbed⟩ := hplaces _ _ _ [] [] (.inside hlist hlist .nil) .nil
    (.layout (.gap .nil))
  rw [hsource] at halone habsorbed
  exact ⟨halone, hplain, habsorbed⟩

/-- A comment behind a number is not skipped. -/
theorem read_comment_ne :
    Comment "/* c */" ∧ read "1" = .ok (.int 1) ∧ read "1 /* c */" ≠ .ok (.int 1) := by
  refine ⟨.block (show ¬[.char '*', .char '/'] <:+: (" c " : Text) by decide), ?_, ?_⟩
  · decide +kernel
  · decide +kernel

end TailwindUpgrade.Literal
