/-
TailwindUpgrade/Proofs/Literal/Heading.lean

What an entry of an object begins with, as a language.  `BareKey` says which keys may stand without
quotes, and `Key k u` that the text `u` writes the key `k`.  A heading is then one of three: a key
and a colon, a key before the end of its entry, or three dots and an expression.

Main results: each of the three is read as what it is, whatever follows it (`head_keyed`,
`head_shorthand`, `head_spread`), and nothing else is read (`head_cases`).
-/
import TailwindUpgrade.Literal.Entry
import TailwindUpgrade.Proofs.Literal.SelfContained
import TailwindUpgrade.Proofs.Text.Run

namespace TailwindUpgrade.Literal

/-- A key that may be written without quotes: an identifier, or digits with perhaps a point and
more digits. -/
inductive BareKey : Text → Prop
  | name {c : CodePoint} {r : Text} :
      Text.isIdentifierStart c = true → (∀ d ∈ r, Text.isIdentifierPart d = true) → BareKey (c :: r)
  | digits {w : Text} : w ≠ [] → (∀ d ∈ w, Text.isDigit d = true) → BareKey w
  | decimal {w f : Text} :
      w ≠ [] → f ≠ [] → (∀ d ∈ w, Text.isDigit d = true) → (∀ d ∈ f, Text.isDigit d = true) →
      BareKey (w ++ .char '.' :: f)

/-- The text `u` writes the key `k`. -/
inductive Key : Text → Text → Prop
  | quoted {q : CodePoint} {k u : Text} :
      isQuote q = true → Quoted q k u → Key k (q :: (u ++ [q]))
  | bare {k : Text} : BareKey k → Key k k

/-- A text that does not continue a key without quotes. -/
def EndsKey (s : Text) : Prop := ∀ c ∈ s.head?, Text.isKeyPart c = false

/-! ### Keys without quotes -/

theorem Gap.endsKey {g s : Text} (hg : Gap g) (hs : EndsKey s) : EndsKey (g ++ s) := by
  cases hg with
  | nil => exact hs
  | @blank c g hc _ =>
    intro d hd
    obtain rfl : c = d := by simpa using hd
    exact Text.isKeyPart_of_isBlank hc
  | @comment k g hk _ =>
    obtain ⟨k, rfl⟩ := hk.head
    intro d hd
    obtain rfl : CodePoint.char '/' = d := by simpa using hd
    decide +kernel

theorem EndsKey.part {s : Text} (h : EndsKey s) :
    ∀ c ∈ s.head?, Text.isIdentifierPart c = false :=
  fun c hc => (Text.isKeyPart_eq_false.1 (h c hc)).1

theorem EndsKey.digit {s : Text} (h : EndsKey s) : ∀ c ∈ s.head?, Text.isDigit c = false :=
  fun c hc => (Text.isKeyPart_eq_false.1 (h c hc)).2.1

/-- Digits begin no identifier. -/
theorem identifier?_digits {w : Text} (hw : ∀ d ∈ w, Text.isDigit d = true) (hne : w ≠ [])
    (s : Text) : Text.identifier? (w ++ s) = none := by
  cases w with
  | nil => exact absurd rfl hne
  | cons d w =>
    rw [List.cons_append, Text.identifier?, if_neg]
    intro hstart
    have hdigit := hw d (by simp)
    rw [(Text.isIdentifierStart_spec hstart).2] at hdigit
    cases hdigit

/-- A key without quotes is read up to what does not continue it. -/
theorem bareKey?_append {k s : Text} (h : BareKey k) (hs : EndsKey s) :
    bareKey? (k ++ s) = some k := by
  cases h with
  | name hc hr =>
    rw [bareKey?, List.cons_append, Text.identifier?, if_pos hc,
      Text.takeWhile_append_stop hr hs.part]
  | digits hne hw =>
    rw [bareKey?, identifier?_digits hw hne]
    simp only [numberKey?, Text.takeWhile_append_stop hw hs.digit,
      Text.dropWhile_append_stop hw hs.digit, if_neg hne]
    split
    · next rest =>
      exact absurd rfl (Text.isKeyPart_eq_false.1 (hs (.char '.') rfl)).2.2
    · rfl
  | @decimal w f hne hf hw hfraction =>
    -- the point ends the digits before it, and what follows the key those behind it
    have hpoint : ∀ c ∈ (CodePoint.char '.' :: (f ++ s)).head?, Text.isDigit c = false := by
      intro c hc
      obtain rfl : CodePoint.char '.' = c := by simpa using hc
      decide +kernel
    rw [bareKey?, List.append_assoc, List.cons_append, identifier?_digits hw hne]
    simp only [numberKey?, Text.takeWhile_append_stop hw hpoint,
      Text.dropWhile_append_stop hw hpoint, if_neg hne,
      Text.takeWhile_append_stop hfraction hs.digit, if_neg hf]
    simp [Text.ofString]

/-- What is read as a key without quotes is one, at the front of the text. -/
theorem bareKey_of_bareKey? {s k : Text} (h : bareKey? s = some k) :
    BareKey k ∧ ∃ r, s = k ++ r := by
  rw [bareKey?] at h
  split at h
  · next name rest hname =>
    obtain rfl := Option.some.inj h
    cases s with
    | nil => cases hname
    | cons c s =>
      rw [Text.identifier?] at hname
      split at hname
      · next hc =>
        obtain ⟨rfl, rfl⟩ := Prod.mk.inj (Option.some.inj hname)
        refine ⟨.name hc fun d hd => List.mem_takeWhile_imp hd, s.dropWhile Text.isIdentifierPart, ?_⟩
        rw [List.cons_append, List.takeWhile_append_dropWhile]
      · cases hname
  · -- no identifier, so digits and perhaps a fraction
    have hdigits : ∀ {w : Text}, ∀ d ∈ w.takeWhile Text.isDigit, Text.isDigit d = true :=
      fun d hd => List.mem_takeWhile_imp hd
    have hs := List.takeWhile_append_dropWhile (p := Text.isDigit) (l := s)
    rw [numberKey?] at h
    split at h
    · cases h
    · next hne =>
      split at h
      · next rest hrest =>
        obtain rfl := Option.some.inj h
        rw [hrest] at hs
        split
        · exact ⟨.digits hne hdigits, _, hs.symm⟩
        · next hfraction =>
          refine ⟨?_, rest.dropWhile Text.isDigit, ?_⟩
          · rw [List.append_assoc]
            exact .decimal hne hfraction hdigits hdigits
          · rw [List.append_assoc, List.append_assoc, List.takeWhile_append_dropWhile]
            exact hs.symm
      · obtain rfl := Option.some.inj h
        exact ⟨.digits hne hdigits, _, hs.symm⟩

/-- The characters of a key without quotes mean nothing to an expression. -/
theorem BareKey.isKeyPart {k : Text} (h : BareKey k) : ∀ c ∈ k, Text.isKeyPart c = true := by
  have hdigits : ∀ {w : Text}, (∀ d ∈ w, Text.isDigit d = true) →
      ∀ d ∈ w, Text.isKeyPart d = true := by
    intro w hw d hd
    simp [Text.isKeyPart, hw d hd]
  intro c hc
  cases h with
  | name hstart hr =>
    rcases List.mem_cons.1 hc with rfl | hc
    · exact (Text.isIdentifierStart_spec hstart).1
    · simp [Text.isKeyPart, hr c hc]
  | digits _ hw => exact hdigits hw c hc
  | decimal _ _ hw hf =>
    rcases List.mem_append.1 hc with hc | hc
    · exact hdigits hw c hc
    · rcases List.mem_cons.1 hc with rfl | hc
      · rfl
      · exact hdigits hf c hc

/-- A character of a key means nothing to an expression. -/
theorem isKeyPart_spec {c : CodePoint} (h : Text.isKeyPart c = true) :
    IsPlain c ∧ c ≠ .char '/' ∧ c ≠ .char ',' ∧ Text.isBlank c = false := by
  have hne : ∀ {d : CodePoint}, Text.isKeyPart d = false → c ≠ d := by
    rintro d hd rfl
    rw [h] at hd
    cases hd
  refine ⟨⟨?_, ?_, ?_⟩, hne (by decide +kernel), hne (by decide +kernel), ?_⟩
  · by_contra hquote
    rcases isQuote_cases (by simpa using hquote) with hc | hc | hc <;>
      exact hne (by decide +kernel) hc
  · unfold closerOf?
    split
    · exact absurd rfl (hne (by decide +kernel))
    · exact absurd rfl (hne (by decide +kernel))
    · exact absurd rfl (hne (by decide +kernel))
    · rfl
  · by_contra hcloser
    rcases isCloser_cases (by simpa using hcloser) with hc | hc | hc <;>
      exact hne (by decide +kernel) hc
  · by_contra hblank
    exact hne (Text.isKeyPart_of_isBlank (by simpa using hblank)) rfl

/-- A key without quotes begins with a character of keys other than the point. -/
theorem BareKey.head {k : Text} (h : BareKey k) :
    ∃ c r, k = c :: r ∧ Text.isKeyPart c = true ∧ c ≠ .char '.' := by
  have hdigits : ∀ {w : Text}, w ≠ [] → (∀ d ∈ w, Text.isDigit d = true) →
      ∃ c r, w = c :: r ∧ Text.isKeyPart c = true ∧ c ≠ .char '.' := by
    intro w hne hw
    cases w with
    | nil => exact absurd rfl hne
    | cons c r =>
      have hc : Text.isDigit c = true := hw c (by simp)
      refine ⟨c, r, rfl, by simp [Text.isKeyPart, hc], ?_⟩
      rintro rfl
      exact absurd hc (by decide +kernel)
  cases h with
  | name hc _ =>
    refine ⟨_, _, rfl, (Text.isIdentifierStart_spec hc).1, ?_⟩
    rintro rfl
    exact absurd hc (by decide)
  | digits hne hw => exact hdigits hne hw
  | decimal hne _ hw _ =>
    obtain ⟨c, r, rfl, hc⟩ := hdigits hne hw
    exact ⟨c, _, rfl, hc⟩

/-! ### Keys -/

/-- What a key begins with begins neither layout nor a spread, and ends no object. -/
theorem Key.head {k u : Text} (h : Key k u) :
    ∃ c r, u = c :: r ∧ Text.isBlank c = false ∧ c ≠ .char '/' ∧ c ≠ .char '.' ∧
      c ≠ .char '\x7d' := by
  cases h with
  | quoted hq _ =>
    refine ⟨_, _, rfl, isBlank_of_isQuote hq, ?_⟩
    rcases isQuote_cases hq with rfl | rfl | rfl <;> decide
  | bare hk =>
    obtain ⟨c, r, rfl, hc, hpoint⟩ := hk.head
    obtain ⟨⟨-, -, hcloser⟩, hslash, -, hblank⟩ := isKeyPart_spec hc
    refine ⟨c, r, rfl, hblank, hslash, hpoint, ?_⟩
    rintro rfl
    exact absurd hcloser (by decide)

theorem Key.solid_append {k u : Text} (h : Key k u) (s : Text) : Solid (u ++ s) := by
  obtain ⟨c, r, rfl, hblank, hslash, -⟩ := h.head
  exact solid_cons hblank hslash

/-- A key is read up to what does not continue it. -/
theorem key_append {k u s : Text} (h : Key k u) (hs : EndsKey s) :
    key (u ++ s) = .ok (k, u.length) := by
  rw [key, peek_solid (h.solid_append s)]
  cases h with
  | @quoted q k u hq hu =>
    have hread : string (q :: (u ++ [q] ++ s)) = .ok (k, u.length + 2) := by
      rw [List.append_assoc, List.singleton_append]
      exact string_append hq hu s
    have hlength : (q :: (u ++ [q])).length = u.length + 2 := by simp
    simp only [List.drop_zero, List.cons_append, hread, Reading.further_zero, List.head?_cons,
      Option.any_some, if_pos hq, hlength]
  | bare hk =>
    obtain ⟨c, r, rfl, hc, -⟩ := hk.head
    obtain ⟨⟨hquote, -⟩, -⟩ := isKeyPart_spec hc
    have hread := bareKey?_append hk hs
    rw [List.cons_append] at hread ⊢
    simp only [List.drop_zero, hread, List.head?_cons,
      Option.any_some, hquote, Bool.false_eq_true, if_false, Nat.zero_add]

/-- What is read as a key is one, at the front of the text. -/
theorem key_of_key {s k : Text} {n : Nat} (hs : Solid s) (h : key s = .ok (k, n)) :
    ∃ u r, s = u ++ r ∧ n = u.length ∧ Key k u := by
  rw [key, peek_solid hs] at h
  simp only [List.drop_zero, Reading.further_zero] at h
  split at h
  · next hquote =>
    obtain ⟨q, u, r, rfl, rfl, hu⟩ := quoted_of_string h
    have hq : isQuote q = true := by simpa using hquote
    exact ⟨q :: (u ++ [q]), r, by simp, by simp, .quoted hq hu⟩
  · split at h
    · next name hname =>
      simp only [Except.ok.injEq, Prod.mk.injEq, Nat.zero_add] at h
      obtain ⟨rfl, rfl⟩ := h
      obtain ⟨hk, r, rfl⟩ := bareKey_of_bareKey? hname
      exact ⟨name, r, rfl, rfl, .bare hk⟩
    · cases h

/-! ### Headings -/

theorem dots_isPrefixOf {c : CodePoint} (h : c ≠ .char '.') (s : Text) :
    dots.isPrefixOf (c :: s) = false := by
  simp [dots, Text.ofString, List.isPrefixOf, Ne.symm h]

theorem drop_dots (s : Text) : (dots ++ s).drop 3 = s := rfl

/-- A key with the colon after it. -/
theorem head_keyed {k u g : Text} (hk : Key k u) (hg : Gap g) (s : Text) :
    head (u ++ (g ++ .char ':' :: s)) = .ok (.keyed k, u.length + (g.length + 1)) := by
  have hends : EndsKey (g ++ .char ':' :: s) := by
    apply hg.endsKey
    intro c hc
    obtain rfl : CodePoint.char ':' = c := by simpa using hc
    decide +kernel
  have hkey := key_append hk hends
  have hpeek := peek_append (s := .char ':' :: s) hg (solid_cons (by decide) (by decide))
  have hdrop : (u ++ (g ++ .char ':' :: s)).drop u.length = g ++ .char ':' :: s := List.drop_left
  obtain ⟨c, r, rfl, -, -, hpoint, -⟩ := hk.head
  rw [head, List.cons_append, dots_isPrefixOf hpoint, ← List.cons_append, hkey]
  simp only [hdrop, hpeek, Reading.further_ok]
  rfl

/-- The marks behind a key that stands alone are no layout. -/
theorem solid_endField {c : CodePoint} (hc : c = .char ',' ∨ c = .char '\x7d') (s : Text) :
    Solid (c :: s) := by
  rcases hc with rfl | rfl
  · exact solid_cons (by decide) (by decide)
  · exact solid_cons (by decide) (by decide)

/-- A key that stands alone. -/
theorem head_shorthand {k u g : Text} {c : CodePoint} (hk : Key k u) (hg : Gap g)
    (hc : c = .char ',' ∨ c = .char '\x7d') (s : Text) :
    head (u ++ (g ++ c :: s)) = .ok (.shorthand k, u.length + g.length) := by
  have hends : EndsKey (g ++ c :: s) := by
    apply hg.endsKey
    intro d hd
    obtain rfl : c = d := by simpa using hd
    rcases hc with rfl | rfl <;> decide +kernel
  have hkey := key_append hk hends
  have hpeek := peek_append hg (solid_endField hc s)
  have hdrop : (u ++ (g ++ c :: s)).drop u.length = g ++ c :: s := List.drop_left
  have hcolon : c ≠ .char ':' := by rcases hc with rfl | rfl <;> decide
  obtain ⟨d, r, rfl, -, -, hpoint, -⟩ := hk.head
  rw [head, List.cons_append, dots_isPrefixOf hpoint, ← List.cons_append, hkey]
  simp only [hdrop, hpeek, Reading.further_ok, List.head?_cons, Option.some.injEq, if_neg hcolon,
    if_pos hc]
  rfl

/-- Three dots and the expression that is spread. -/
theorem head_spread {g e b s : Text} (hg : Gap g) (he : SelfContained e) (hb : Trailing e b)
    (hs : Stops s) :
    head (dots ++ (g ++ (e ++ (b ++ s)))) = .ok (.spread e, 3 + (g.length + (e ++ b).length)) := by
  have hdots : dots.isPrefixOf (dots ++ (g ++ (e ++ (b ++ s)))) = true := by
    rw [List.isPrefixOf_iff_prefix]
    exact List.prefix_append _ _
  have hdrop : (dots ++ (g ++ (e ++ (b ++ s)))).drop 3 = g ++ (e ++ (b ++ s)) := drop_dots _
  rw [head, if_pos hdots, hdrop, expression_append hg he hb hs]
  rfl

/-- What is read as a heading is one of the three. -/
theorem head_cases {s : Text} {h : Head} {n : Nat} (hs : Solid s) (hread : head s = .ok (h, n)) :
    (∃ k u g r, h = .keyed k ∧ s = u ++ (g ++ .char ':' :: r) ∧ n = u.length + (g.length + 1) ∧
        Key k u ∧ Gap g) ∨
      (∃ k u g c r, h = .shorthand k ∧ (c = .char ',' ∨ c = .char '\x7d') ∧
        s = u ++ (g ++ c :: r) ∧ n = u.length + g.length ∧ Key k u ∧ Gap g) ∨
      (∃ e g b r, h = .spread e ∧ s = dots ++ (g ++ (e ++ (b ++ r))) ∧
        n = 3 + (g.length + (e ++ b).length) ∧ Gap g ∧ SelfContained e ∧ Text.AllBlank b ∧
        Stops r ∧ (r ≠ [] → Trailing e b)) := by
  rw [head] at hread
  split at hread
  · next hdots =>
    obtain ⟨r, rfl⟩ := List.isPrefixOf_iff_prefix.1 hdots
    rw [drop_dots] at hread
    obtain ⟨k, hmap, rfl⟩ := Reading.further_eq_ok hread
    obtain ⟨e, hexpr, rfl⟩ := Reading.map_eq_ok hmap
    obtain ⟨g, b, r, rfl, rfl, hg, he, hb, hr, htrailing⟩ := selfContained_of_expression hexpr
    exact .inr (.inr ⟨e, g, b, r, rfl, rfl, rfl, hg, he, hb, hr, htrailing⟩)
  · split at hread
    · cases hread
    · next k m hkey =>
      -- a key, and what stands behind the layout after it
      obtain ⟨u, r, rfl, rfl, hk⟩ := key_of_key hs hkey
      rw [List.drop_left] at hread
      split at hread
      · cases hread
      · next found m hpeek =>
        obtain ⟨m, hahead, rfl⟩ := Reading.further_eq_ok hpeek
        obtain ⟨g, r, rfl, rfl, rfl, -, hg, -⟩ := gap_of_peek hahead
        cases r with
        | nil => simp at hread
        | cons c r =>
          have hgap : Gap g := hg (by simp)
          simp only [List.head?_cons, Option.some.injEq] at hread
          split at hread
          · next hcolon =>
            obtain ⟨rfl, rfl⟩ := Prod.mk.inj (Except.ok.inj hread)
            subst hcolon
            exact .inl ⟨k, u, g, r, rfl, rfl, by omega, hk, hgap⟩
          · split at hread
            · next hend =>
              obtain ⟨rfl, rfl⟩ := Prod.mk.inj (Except.ok.inj hread)
              exact .inr (.inl ⟨k, u, g, c, r, rfl, hend, rfl, rfl, hk, hgap⟩)
            · cases hread

/-! ### Headings among balanced text -/

/-- Characters of keys before a balanced text. -/
theorem Balanced.keyParts {cs w s : Text} (hw : ∀ c ∈ w, Text.isKeyPart c = true)
    (hs : Balanced cs s) : Balanced cs (w ++ s) := by
  refine hs.plains fun c hc => ?_
  obtain ⟨hplain, hslash, hcomma, -⟩ := isKeyPart_spec (hw c hc)
  exact ⟨hplain, hslash, hcomma⟩

theorem Key.balanced {k u cs s : Text} (h : Key k u) (hs : Balanced cs s) :
    Balanced cs (u ++ s) := by
  cases h with
  | @quoted q k u hq hu =>
    rw [List.cons_append, List.append_assoc]
    exact .string hq hu hs
  | bare hk => exact hs.keyParts hk.isKeyPart

theorem Balanced.dots {cs s : Text} (hs : Balanced cs s) : Balanced cs (dots ++ s) :=
  hs.keyParts (by decide +kernel)

theorem Balanced.colon {cs s : Text} (hs : Balanced cs s) : Balanced cs (.char ':' :: s) :=
  .plain ⟨rfl, rfl, rfl⟩ (beginsComment_of_ne (by decide) s) (fun hc => absurd hc (by decide)) hs

end TailwindUpgrade.Literal
