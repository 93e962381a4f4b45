/-
TailwindUpgrade/Proofs/Literal/Rendering.lean

Every way to write a value is read as the value.  A `Rendering` of a value leaves all choices open
that a literal has: the quote of each string and how each of its characters is written, whether a
key that is an identifier stands in quotes, a comma after the last entry, and the layout between any
two tokens.  Only a word, that is a keyword or an integer, has to be followed by blanks alone, since
a comment behind it would be taken for a part of it.

A character beyond U+FFFF that is escaped is read as its two surrogates.  The value that is read is
therefore the one that was written up to `utf16`, and the same one if no pair was written.

Main result: every rendering of a value is read, as this value (`read_rendering`).  An integer may
be written with zeros before it, as long as there are no more than `Numeral.maxDigits` digits.
-/
import TailwindUpgrade.Proofs.Literal.Agreement
import TailwindUpgrade.Proofs.Literal.Record
import TailwindUpgrade.Proofs.Literal.Utf16
import TailwindUpgrade.Proofs.Number.Numeral

namespace TailwindUpgrade.Literal

/-! ### How a value may be written -/

/-- The characters that name a control after a backslash. -/
def controlNames : Text := "ntrbfv0"

/-- The text `u` writes the text `t` between two quotes `q`; with `pairs`, a character beyond U+FFFF
may be escaped as its two surrogates. -/
inductive Spelled (pairs : Bool) (q : CodePoint) : Text → Text → Prop
  | nil : Spelled pairs q [] []
  | raw {c : CodePoint} {t u : Text} :
      c ≠ .char '\\' → c ≠ q → (c = .char '\n' → q = .char '\x60') → Spelled pairs q t u →
      Spelled pairs q (c :: t) (c :: u)
  | unit {c : CodePoint} {digits t u : Text} :
      IsUnit digits → Text.hexNumber digits = c.toNat → Spelled pairs q t u →
      Spelled pairs q (c :: t) (.char '\\' :: .char 'u' :: (digits ++ u))
  | pair {c : CodePoint} {high low t u : Text} :
      pairs = true → IsUnit high → IsUnit low →
      Text.units16 c = [Text.hexNumber high, Text.hexNumber low] → Spelled pairs q t u →
      Spelled pairs q (c :: t)
        (.char '\\' :: .char 'u' :: (high ++ .char '\\' :: .char 'u' :: (low ++ u)))
  | control {e : CodePoint} {t u : Text} :
      e ∈ controlNames → Spelled pairs q t u →
      Spelled pairs q (namedEscape e :: t) (.char '\\' :: e :: u)
  | escaped {c : CodePoint} {t u : Text} :
      c ∉ controlNames → c ≠ .char 'u' → c ≠ .char '\n' → Spelled pairs q t u →
      Spelled pairs q (c :: t) (.char '\\' :: c :: u)

/-- The text `u` writes the key `k`: as a string, or as an identifier. -/
inductive SpelledKey (pairs : Bool) : Text → Text → Prop
  | quoted {q : CodePoint} {k u : Text} :
      isQuote q = true → Spelled pairs q k u → SpelledKey pairs k (q :: (u ++ [q]))
  | identifier {c : CodePoint} {r : Text} :
      Text.isIdentifierStart c = true → (∀ d ∈ r, Text.isIdentifierPart d = true) →
      SpelledKey pairs (c :: r) (c :: r)

/-- The floating-point number nearest to an integer is finite. -/
def HasFiniteNearest (n : Int) : Prop :=
  (Binary64.ofDecimal (decide (n < 0)) n.natAbs 0).isFinite = true

instance (n : Int) : Decidable (HasFiniteNearest n) :=
  inferInstanceAs (Decidable (_ = _))

/-- A value that is written as a keyword or as a number of no more digits than are read. -/
inductive Word : Value → Text → Prop
  | nullWord : Word .null "null"
  | trueWord : Word (.bool true) "true"
  | falseWord : Word (.bool false) "false"
  | digits {n : Int} {w : Text} :
      HasFiniteNearest n → w ≠ [] → (∀ c ∈ w, Text.isDigit c = true) →
      w.length ≤ Numeral.maxDigits → n = Text.digitsValue w → Word (.int n) w
  | minus {n : Int} {w : Text} :
      HasFiniteNearest n → w ≠ [] → (∀ c ∈ w, Text.isDigit c = true) →
      w.length ≤ Numeral.maxDigits → n = -Text.digitsValue w → Word (.int n) (.char '-' :: w)

/-- A value with what may stand between it and the next token. -/
inductive RenderedValue (R : Value → Text → Prop) : Value → Text → Prop
  | closed {v : Value} {u g : Text} : R v u → Gap g → RenderedValue R v (u ++ g)
  | word {v : Value} {e b : Text} : Word v e → Text.AllBlank b → RenderedValue R v (e ++ b)

/-- A field of an object, up to the next token. -/
inductive RenderedField (pairs : Bool) (R : Value → Text → Prop) : Text × Value → Text → Prop
  | mk {k u g g' x : Text} {v : Value} :
      SpelledKey pairs k u → Gap g → Gap g' → RenderedValue R v x →
      RenderedField pairs R (k, v) (u ++ (g ++ .char ':' :: (g' ++ x)))

/-- The text `u` writes the value `v` between marks of its own.  The names of an object are
distinct, and if pairs may be escaped, they are so in UTF-16. -/
inductive Rendered (pairs : Bool) : Value → Text → Prop
  | string {q : CodePoint} {t u : Text} :
      isQuote q = true → Spelled pairs q t u → Rendered pairs (.str t) (q :: (u ++ [q]))
  | array {R : Value → Text → Prop} {items : List Value} {body : Text} :
      (∀ v u, R v u → Rendered pairs v u) → Listed ']' (RenderedValue R) items body →
      Rendered pairs (.array items) (.char '[' :: body)
  | object {R : Value → Text → Prop} {fs : List (Text × Value)} {body : Text} :
      (∀ v u, R v u → Rendered pairs v u) → (fs.map Prod.fst).Nodup →
      (pairs = true → (fs.map fun f => Text.utf16 f.1).Nodup) →
      Listed '\x7d' (RenderedField pairs R) fs body →
      Rendered pairs (.object fs) (.char '\x7b' :: body)

/-- The text `s` is a literal of the value `v` and nothing else; a line comment that ends it needs
no line feed. -/
inductive Rendering (pairs : Bool) (v : Value) : Text → Prop
  | closed {g u g' : Text} :
      Gap g → Rendered pairs v u → Gap (g' ++ [.char '\n']) → Rendering pairs v (g ++ (u ++ g'))
  | word {g e b : Text} :
      Gap g → Word v e → Text.AllBlank b → Rendering pairs v (g ++ (e ++ b))

/-- The value `w` is `v` up to how characters beyond U+FFFF are written, and `v` itself if no pair
was. -/
def Reads (pairs : Bool) (v w : Value) : Prop := w.utf16 = v.utf16 ∧ (pairs = false → w = v)

variable {pairs : Bool} {q : CodePoint} {v w : Value} {t u e x : Text}

theorem Reads.refl (pairs : Bool) (v : Value) : Reads pairs v v := ⟨rfl, fun _ => rfl⟩

/-! ### Strings -/

theorem namedEscape_of_not_mem {c : CodePoint} (h : c ∉ controlNames) : namedEscape c = c := by
  unfold namedEscape
  split
  · exact absurd (by decide) h
  · exact absurd (by decide) h
  · exact absurd (by decide) h
  · exact absurd (by decide) h
  · exact absurd (by decide) h
  · exact absurd (by decide) h
  · exact absurd (by decide) h
  · rfl

/-- A text that is spelled is a string, of that text up to how characters beyond U+FFFF are
written. -/
theorem Spelled.quoted (h : Spelled pairs q t u) :
    ∃ t', Quoted q t' u ∧ Text.utf16 t' = Text.utf16 t ∧ (pairs = false → t' = t) := by
  induction h with
  | nil => exact ⟨[], .nil, rfl, fun _ => rfl⟩
  | @raw c t u hc hq hline _ ih =>
    obtain ⟨t', hu, hutf, hsame⟩ := ih
    refine ⟨c :: t', .raw hc hq hline hu, ?_, fun hp => by rw [hsame hp]⟩
    rw [Text.utf16_cons, Text.utf16_cons, hutf]
  | @unit c digits t u hdigits hnumber _ ih =>
    obtain ⟨t', hu, hutf, hsame⟩ := ih
    have hunit := Quoted.unit hdigits hu
    rw [hnumber, CodePoint.ofNat_toNat] at hunit
    refine ⟨c :: t', hunit, ?_, fun hp => by rw [hsame hp]⟩
    rw [Text.utf16_cons, Text.utf16_cons, hutf]
  | @pair c high low t u hpairs hhigh hlow hunits _ ih =>
    -- the two escapes are read as two units, which is how UTF-16 writes the character
    obtain ⟨t', hu, hutf, -⟩ := ih
    refine ⟨_, .unit hhigh (.unit hlow hu), ?_, fun hp => absurd (hp.symm.trans hpairs) (by decide)⟩
    have hsmall : ∀ n ∈ Text.units16 c, (CodePoint.ofNat n).toNat < 0x10000 :=
      fun n hn => Text.toNat_ofNat_of_mem_units16 hn
    rw [hunits] at hsmall
    rw [Text.utf16_cons_of_lt (hsmall _ (by simp)), Text.utf16_cons_of_lt (hsmall _ (by simp)),
      Text.utf16_cons c, hunits, hutf]
    rfl
  | @control e t u he _ ih =>
    obtain ⟨t', hu, hutf, hsame⟩ := ih
    have hne : e ≠ .char '\n' ∧ e ≠ .char 'u' := by
      constructor
      · rintro rfl
        exact absurd he (by decide)
      · rintro rfl
        exact absurd he (by decide)
    refine ⟨_, .escaped hne.1 (fun heu => absurd heu hne.2) hu, ?_, fun hp => by rw [hsame hp]⟩
    rw [Text.utf16_cons, Text.utf16_cons, hutf]
  | @escaped c t u hc hcu hline _ ih =>
    obtain ⟨t', hu, hutf, hsame⟩ := ih
    refine ⟨_, .escaped hline (fun h => absurd h hcu) hu, ?_, fun hp => ?_⟩
    · rw [namedEscape_of_not_mem hc, Text.utf16_cons, Text.utf16_cons, hutf]
    · rw [namedEscape_of_not_mem hc, hsame hp]

theorem SpelledKey.key {k : Text} (h : SpelledKey pairs k u) :
    ∃ k', Key k' u ∧ Text.utf16 k' = Text.utf16 k ∧ (pairs = false → k' = k) := by
  cases h with
  | quoted hq hu =>
    obtain ⟨k', hk, hutf, hsame⟩ := hu.quoted
    exact ⟨k', .quoted hq hk, hutf, hsame⟩
  | identifier hc hr => exact ⟨_, .bare (.name hc hr), rfl, fun _ => rfl⟩

/-! ### Keywords and integers -/

/-- Characters of keys, perhaps after a minus sign; the first of them is no point. -/
def Wordlike (e : Text) : Prop :=
  ∃ sign c r, e = sign ++ c :: r ∧ (sign = [] ∨ sign = [.char '-']) ∧ c ≠ .char '.' ∧
    ∀ d ∈ c :: r, Text.isKeyPart d = true

theorem exists_cons_of_digits {w : Text} (hne : w ≠ []) (hw : ∀ c ∈ w, Text.isDigit c = true) :
    ∃ c r, w = c :: r ∧ c ≠ .char '.' ∧ ∀ d ∈ c :: r, Text.isKeyPart d = true := by
  cases w with
  | nil => exact absurd rfl hne
  | cons c r =>
    refine ⟨c, r, rfl, ?_, fun d hd => by simp [Text.isKeyPart, hw d hd]⟩
    rintro rfl
    exact absurd (hw (.char '.') (by simp)) (by decide +kernel)

theorem wordlike_digits {w : Text} (hne : w ≠ []) (hw : ∀ c ∈ w, Text.isDigit c = true) :
    Wordlike w := by
  obtain ⟨c, r, rfl, hc⟩ := exists_cons_of_digits hne hw
  exact ⟨[], c, r, rfl, .inl rfl, hc⟩

theorem Word.wordlike (h : Word v e) : Wordlike e := by
  cases h with
  | nullWord => exact ⟨[], .char 'n', Text.ofString "ull", rfl, .inl rfl, by decide, by decide +kernel⟩
  | trueWord => exact ⟨[], .char 't', Text.ofString "rue", rfl, .inl rfl, by decide, by decide +kernel⟩
  | falseWord => exact ⟨[], .char 'f', Text.ofString "alse", rfl, .inl rfl, by decide, by decide +kernel⟩
  | digits _ hne hw _ _ => exact wordlike_digits hne hw
  | minus _ hne hw _ _ =>
    obtain ⟨c, r, rfl, hc⟩ := exists_cons_of_digits hne hw
    exact ⟨[.char '-'], c, r, rfl, .inr rfl, hc⟩

theorem Wordlike.trailing (h : Wordlike e) {b : Text} (hb : Text.AllBlank b) : Trailing e b := by
  refine ⟨hb, ?_⟩
  obtain ⟨sign, c, r, rfl, hsign, -, hpart⟩ := h
  have hblank : Balanced [] b := by
    have := Balanced.gap (Gap.of_allBlank hb) Balanced.nil
    rwa [List.append_nil] at this
  have hparts : Balanced [] (c :: r ++ b) := hblank.keyParts hpart
  rcases hsign with rfl | rfl
  · exact hparts
  · exact .plain ⟨rfl, rfl, rfl⟩ (beginsComment_of_ne (by decide) _)
      (fun hc => absurd hc (by decide)) hparts

theorem Wordlike.selfContained (h : Wordlike e) : SelfContained e := by
  have hbalanced := (h.trailing Text.allBlank_nil).2
  obtain ⟨sign, c, r, rfl, hsign, -, hpart⟩ := h
  have hblank : ∀ d ∈ c :: r, Text.isBlank d = false := fun d hd => (isKeyPart_spec (hpart d hd)).2.2.2
  refine selfContained_of_balanced (by simp) ?_ ?_ Text.allBlank_nil hbalanced
  · rcases hsign with rfl | rfl
    · exact solid_cons (hblank c (by simp)) (isKeyPart_spec (hpart c (by simp))).2.1
    · exact solid_cons (by decide) (by decide)
  · refine Text.Trimmed.append (fun d hd => ?_) (by simp)
    exact hblank d (List.mem_of_getLast? hd)

/-- What is written like a word begins neither a closed value nor a spread. -/
theorem Wordlike.head (h : Wordlike e) :
    ∃ c r, e = c :: r ∧ isQuote c = false ∧ c ≠ .char '\x7b' ∧ c ≠ .char '[' ∧ c ≠ .char '.' := by
  obtain ⟨sign, c, r, rfl, hsign, hpoint, hpart⟩ := h
  rcases hsign with rfl | rfl
  · obtain ⟨⟨hquote, hopener, -⟩, -⟩ := isKeyPart_spec (hpart c (by simp))
    refine ⟨c, r, rfl, hquote, ?_, ?_, hpoint⟩
    · rintro rfl
      exact absurd hopener (by decide)
    · rintro rfl
      exact absurd hopener (by decide)
  · exact ⟨.char '-', c :: r, rfl, by decide⟩

theorem expressionValue_of_read? {n : Numeral} (h : Numeral.read? e = some n) :
    expressionValue e = numberValue n := by
  have hne : ∀ k : Text, Numeral.read? k = none → e ≠ k := by
    rintro k hk rfl
    rw [h] at hk
    cases hk
  rw [expressionValue, if_neg (hne _ (by decide +kernel)), if_neg (hne _ (by decide +kernel)),
    if_neg, h]
  rintro (hnull | hundefined)
  · exact hne _ (by decide +kernel) hnull
  · exact hne _ (by decide +kernel) hundefined

/-- An integer without fraction or exponent whose nearest number is finite is read if it has no more
digits than an integer is read from. -/
theorem numberValue_digits {n : Int} {w : Text} (negative : Bool) (hfinite : HasFiniteNearest n)
    (hn : n = if negative then -(Text.digitsValue w : Int) else Text.digitsValue w) :
    numberValue ⟨negative, w, none, none⟩ =
      if w.length ≤ Numeral.maxDigits then .ok (.int n) else .error (.longNumeral w.length) := by
  have habs : n.natAbs = Text.digitsValue w := by
    subst hn
    split <;> simp
  have hnearest : (Numeral.nearest ⟨negative, w, none, none⟩).isFinite = true := by
    rw [HasFiniteNearest, habs, Binary64.isFinite_ofDecimal] at hfinite
    simp only [Numeral.nearest, Option.getD_none, List.append_nil, List.length_nil]
    rw [Binary64.isFinite_ofDecimal]
    exact hfinite
  simp only [numberValue, Numeral.integer?, hnearest, hn]

theorem Word.value (h : Word v e) : expressionValue e = .ok v := by
  cases h with
  | nullWord => decide +kernel
  | trueWord => decide +kernel
  | falseWord => decide +kernel
  | digits hfinite hne hw hlength hn =>
    rw [expressionValue_of_read? (Numeral.read?_digits hne hw),
      numberValue_digits false hfinite hn, if_pos hlength]
  | minus hfinite hne hw hlength hn =>
    rw [expressionValue_of_read? (Numeral.read?_minus hne hw),
      numberValue_digits true hfinite hn, if_pos hlength]

theorem Word.bare (h : Word v e) : Bare v e := by
  obtain ⟨c, r, hcr, hquote, hbrace, hbracket, -⟩ := h.wordlike.head
  refine .word h.wordlike.selfContained ?_ h.value
  intro d hd
  obtain rfl : c = d := by simpa [hcr] using hd
  exact ⟨hquote, hbrace, hbracket⟩

/-! ### Entries -/

variable {R : Value → Text → Prop}

/-- A rendered value is a value in a container, whose source begins with no point. -/
theorem RenderedValue.placed (hR : ∀ v u, R v u → ∃ w, Reads pairs v w ∧ Closed w u)
    (h : RenderedValue R v x) :
    ∃ w e, Reads pairs v w ∧ PlacedValue Closed w e x ∧ dots.isPrefixOf e = false := by
  cases h with
  | @closed u g hu hg =>
    obtain ⟨w, hw, hclosed⟩ := hR _ _ hu
    obtain ⟨hplaced, hdots⟩ := hclosed.placed hg
    exact ⟨w, _, hw, hplaced, hdots⟩
  | @word e b he hb =>
    refine ⟨v, e, .refl pairs v, .bare he.bare (he.wordlike.trailing hb), ?_⟩
    obtain ⟨c, r, hcr, -, -, -, hpoint⟩ := he.wordlike.head
    rw [hcr]
    exact dots_isPrefixOf hpoint _

theorem RenderedValue.itemText (hR : ∀ v u, R v u → ∃ w, Reads pairs v w ∧ Closed w u)
    (h : RenderedValue R v x) : ∃ a, Reads pairs v a.1 ∧ ItemText Closed a x := by
  obtain ⟨w, e, hw, hx, hdots⟩ := h.placed hR
  exact ⟨(w, e), hw, .value hx hdots⟩

/-- A rendered field is read under its name and as its value, up to how characters beyond U+FFFF are
written. -/
def ReadsField (pairs : Bool) (f : Text × Value) (entry : Entry) : Prop :=
  Text.utf16 entry.head.name = Text.utf16 f.1 ∧ entry.value.utf16 = f.2.utf16 ∧
    (pairs = false → entry.field = f)

theorem RenderedField.fieldText {f : Text × Value}
    (hR : ∀ v u, R v u → ∃ w, Reads pairs v w ∧ Closed w u) (h : RenderedField pairs R f x) :
    ∃ entry, ReadsField pairs f entry ∧ FieldText Closed entry x := by
  cases h with
  | @mk k u g g' x v hk hg hg' hx =>
    obtain ⟨k', hk', hutf, hsame⟩ := hk.key
    obtain ⟨w, e, ⟨hwutf, hwsame⟩, hplaced, -⟩ := hx.placed hR
    refine ⟨⟨.keyed k', w, e⟩, ⟨hutf, hwutf, fun hp => ?_⟩, .keyed hk' hg hg' hplaced⟩
    exact Prod.ext (hsame hp) (hwsame hp)

theorem map_eq_map_of_forall₂ {α β γ : Type} {f : α → γ} {g : β → γ} {as : List α} {bs : List β}
    (h : List.Forall₂ (fun a b => g b = f a) as bs) : bs.map g = as.map f := by
  induction h with
  | nil => rfl
  | cons hab _ ih => rw [List.map_cons, List.map_cons, hab, ih]

/-! ### Closed values -/

/-- What a value is rendered as between marks of its own is a closed value, the same one up to how
characters beyond U+FFFF are written. -/
theorem Rendered.closed (h : Rendered pairs v u) : ∃ w, Reads pairs v w ∧ Closed w u := by
  induction h with
  | string hq hu =>
    obtain ⟨t', hu', hutf, hsame⟩ := hu.quoted
    refine ⟨.str t', ⟨?_, fun hp => by rw [hsame hp]⟩, .string hq hu'⟩
    rw [Value.utf16, Value.utf16, hutf]
  | @array R items body _ hbody ih =>
    obtain ⟨as, has, hlisted⟩ := hbody.transfer fun v x hx => hx.itemText ih
    refine ⟨.array (as.map Prod.fst), ⟨?_, fun hp => ?_⟩, .array (fun _ _ hu => hu) hlisted⟩
    · have hutf := map_eq_map_of_forall₂ (g := fun a : Value × Text => a.1.utf16) (f := Value.utf16)
        (has.imp fun _ _ hva => hva.1)
      rw [Value.utf16, Value.utf16, Value.utf16Items_eq, Value.utf16Items_eq, List.map_map]
      exact congrArg Value.array hutf
    · have hsame := map_eq_map_of_forall₂ (g := fun a : Value × Text => a.1) (f := fun v => v)
        (has.imp fun _ _ hva => hva.2 hp)
      rw [List.map_id'] at hsame
      exact congrArg Value.array hsame
  | @object R fs body _ hnames hpairs hbody ih =>
    obtain ⟨entries, hentries, hlisted⟩ := hbody.transfer fun f x hx => hx.fieldText ih
    have hsame : pairs = false → entries.map Entry.field = fs := by
      intro hp
      have := map_eq_map_of_forall₂ (g := Entry.field) (f := fun f => f)
        (hentries.imp fun _ _ hf => hf.2.2 hp)
      rwa [List.map_id'] at this
    have hdistinct : ((entries.map Entry.field).map Prod.fst).Nodup := by
      cases pairs with
      | false => rwa [hsame rfl]
      | true =>
        -- names that differ in UTF-16 differ, so that no field is written twice
        have hutfNames := map_eq_map_of_forall₂
          (g := fun entry : Entry => Text.utf16 entry.head.name)
          (f := fun f : Text × Value => Text.utf16 f.1) (hentries.imp fun _ _ hf => hf.1)
        apply List.Nodup.of_map Text.utf16
        rw [List.map_map, List.map_map]
        exact hutfNames.symm ▸ hpairs rfl
    have hclosed := Closed.object (fun _ _ hu => hu) hlisted
    rw [Record.ofList_of_nodup hdistinct] at hclosed
    refine ⟨_, ⟨?_, fun hp => ?_⟩, hclosed⟩
    · have hutf := map_eq_map_of_forall₂
        (g := fun entry : Entry => (Text.utf16 entry.head.name, entry.value.utf16))
        (f := fun f : Text × Value => (Text.utf16 f.1, f.2.utf16))
        (hentries.imp fun _ _ hf => Prod.ext hf.1 hf.2.1)
      rw [Value.utf16, Value.utf16, Value.utf16Fields_eq, Value.utf16Fields_eq, List.map_map]
      exact congrArg Value.object hutf
    · exact congrArg Value.object (hsame hp)

/-! ### Whole texts -/

/-- **However a value is written, it is read back:** up to how characters beyond U+FFFF are written,
and exactly if none of them is escaped. -/
theorem read_rendering {pairs : Bool} {v : Value} {s : Text} (h : Rendering pairs v s) :
    ∃ w, read s = .ok w ∧ w.utf16 = v.utf16 ∧ (pairs = false → w = v) := by
  cases h with
  | @closed g u g' hg hu hg' =>
    obtain ⟨w, ⟨hutf, hsame⟩, hclosed⟩ := hu.closed
    have hr := hclosed.reads
    obtain ⟨c, r, hcr, hblank, hslash, -⟩ := hr.head
    refine ⟨w, read_gap hg ?_ (by simp [hcr]) (hr.read_last hg' Text.allBlank_lineFeed), hutf, hsame⟩
    rw [hcr]
    exact solid_cons hblank hslash
  | @word g e b hg he hb =>
    -- nothing stops the word but the end of the text
    have hself := he.wordlike.selfContained
    have hexpr := expression_append .nil hself (he.wordlike.trailing hb) stops_nil
    simp only [List.append_nil, List.nil_append, List.length_nil, Nat.zero_add] at hexpr
    have hapart := apart_of_allBlank hb stops_nil
    rw [List.append_nil] at hapart
    have hread : read (e ++ b) = .ok v := by
      apply read_of_value (k := 0) (value_bare he.bare hapart hexpr)
      rw [List.drop_length]
      exact peek_solid solid_nil
    exact ⟨v, read_gap hg (hself.solid.append hself.ne_nil hapart) (by simp [hself.ne_nil]) hread,
      rfl, fun _ => rfl⟩

/-- A literal with comments around all of its tokens, a trailing comma in each container, an
escaped pair, a leading zero, and a line comment at its end. -/
theorem read_rendering_mixed :
    ∃ w, read "/* ] */ \x7b \"k\\u00e9\\ud83d\\ude00\" /**/ : [ -07 , '\\n\\q' // ,\n , ] , \x7d // \x7d" =
        .ok w ∧
      w.utf16 = (Value.object [(['k', 'é', '😀'], .array [.int (-7), .str ['\n', 'q']])]).utf16 ∧
        (true = false → w = .object [(['k', 'é', '😀'], .array [.int (-7), .str ['\n', 'q']])]) := by
  have hspace : Gap [.char ' '] := .blank rfl .nil
  have hline : Gap " // ,\n " :=
    .blank rfl (.comment (.line (show .char '\n' ∉ Text.ofString " ," by decide)) hspace)
  have hblock : ∀ {u : Text}, ¬ [.char '*', .char '/'] <:+: u →
      Gap (.char '/' :: .char '*' :: (u ++ [.char '*', .char '/']) ++ [.char ' ']) :=
    fun hu => .comment (.block hu) hspace
  have hkey : SpelledKey true ['k', 'é', '😀'] "\"k\\u00e9\\ud83d\\ude00\"" :=
    .quoted (q := '\"') rfl (.raw (by decide) (by decide) (by decide)
      (.unit (show IsUnit "00e9" from ⟨rfl, rfl⟩) (by decide)
        (.pair rfl (show IsUnit "d83d" from ⟨rfl, rfl⟩) (show IsUnit "de00" from ⟨rfl, rfl⟩)
          (by decide) .nil)))
  have hstring : Rendered true (.str ['\n', 'q']) "'\\n\\q'" :=
    .string (q := '\'') rfl (.control (e := 'n') (by decide)
      (.escaped (by decide) (by decide) (by decide) .nil))
  have hint : Word (.int (-7)) "-07" :=
    .minus (w := "07") (by decide +kernel) (by decide) (by decide +kernel) (by decide +kernel)
      (by decide +kernel)
  have hitems : Listed ']' (RenderedValue (Rendered true)) [.int (-7), .str ['\n', 'q']]
      " -07 , '\\n\\q' // ,\n , ]" :=
    .more hspace (RenderedValue.word hint (Text.allBlank_spaces 1))
      (.more hspace (RenderedValue.closed hstring hline) (.none hspace))
  have hfields : Listed '\x7d' (RenderedField true (Rendered true))
      [(['k', 'é', '😀'], .array [.int (-7), .str ['\n', 'q']])]
      " \"k\\u00e9\\ud83d\\ude00\" /**/ : [ -07 , '\\n\\q' // ,\n , ] , \x7d" :=
    .more hspace (RenderedField.mk hkey (.blank rfl (hblock (u := []) (by decide))) hspace
      (RenderedValue.closed (Rendered.array (fun _ _ hu => hu) hitems) hspace)) (.none hspace)
  have hlast : Comment "// \x7d\n" := .line (show .char '\n' ∉ Text.ofString " \x7d" by decide)
  have hcomment := Gap.comment hlast .nil
  have hend : Gap (Text.ofString " // \x7d" ++ [.char '\n']) := .blank rfl hcomment
  exact read_rendering (.closed (hblock (u := " ] ") (by decide))
    (.object (fun _ _ hu => hu) (by decide) (fun _ => by decide +kernel) hfields) hend)

end TailwindUpgrade.Literal
