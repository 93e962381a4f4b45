/-
TailwindUpgrade/Proofs/Literal/Sentence.lean

Whole texts.  A text is a `Sentence` if it is one value from its first character to its last, with
layout around it; at the end of the text a line comment needs no line feed (`LastGap`).  A semicolon
may stand behind a container.  Behind a string or an expression it belongs to an expression, since
expressions are not understood and nothing but a comma or a bracket ends them.

Main results: the strict reading succeeds on sentences and on nothing else, with the value that the
grammar gives them (`read_eq_ok_iff`), so that no text has two values.  What counts as an expression
is said here by what the text is not, and in `Bare`, for the values in a container, by how it
begins; both say the same (`bare_iff`).
-/
import TailwindUpgrade.Proofs.Literal.Soundness

namespace TailwindUpgrade.Literal

/-! ### The language -/

/-- Layout at the end of a text, where a line comment needs no line feed. -/
inductive LastGap : Text → Prop
  | gap {p : Text} : Gap p → LastGap p
  | openLine {g body : Text} :
      Gap g → (.char '\n') ∉ body → LastGap (g ++ .char '/' :: .char '/' :: body)

/-- A text that counts as an expression where a value is due: it is read as one, whole, and is no
container and no string, not even one with layout behind it. -/
structure IsExpression (e : Text) : Prop where
  whole : SelfContained e
  noContainer : ∀ c ∈ e.head?, c ≠ .char '\x7b' ∧ c ≠ .char '['
  noString : ∀ q t u p, isQuote q = true → Quoted q t u → LastGap p → e ≠ q :: (u ++ q :: p)

/-- The text is the value `v` and nothing else. -/
inductive Sentence (v : Value) : Text → Prop
  | closed {g u p : Text} : Gap g → Closed v u → LastGap p → Sentence v (g ++ (u ++ p))
  | semicolon {g u p p' : Text} :
      Gap g → Closed v u → (∀ t, v ≠ .str t) → Gap p → LastGap p' →
      Sentence v (g ++ (u ++ (p ++ .char ';' :: p')))
  | expression {g e b : Text} :
      Gap g → IsExpression e → expressionValue e = .ok v → Text.AllBlank b →
      Sentence v (g ++ (e ++ b))

/-! ### Layout at the end of a text -/

theorem gap_lineFeed : Gap [.char '\n'] := .of_allBlank Text.allBlank_lineFeed

theorem LastGap.append {g p : Text} (hg : Gap g) (hp : LastGap p) : LastGap (g ++ p) := by
  cases hp with
  | gap hp => exact .gap (hg.append hp)
  | openLine hg' hbody =>
    rw [← List.append_assoc]
    exact .openLine (hg.append hg') hbody

/-- A complete comment whose last blanks are cut off can still end a text. -/
theorem Comment.lastGap {k p b : Text} (hk : Comment k) (h : k = p ++ b) (hb : Text.AllBlank b) :
    LastGap p := by
  rcases hk.cut_blanks h hb with rfl | ⟨body, hbody, rfl⟩
  · have hgap := Gap.comment hk .nil
    rw [List.append_nil] at hgap
    exact .gap hgap
  · exact .openLine .nil hbody

/-- Layout can end a text if a line feed completes it. -/
theorem lastGap_iff {p : Text} : LastGap p ↔ Gap (p ++ [.char '\n']) := by
  constructor
  · rintro (hp | @⟨g, body, hg, hbody⟩)
    · exact hp.append gap_lineFeed
    · have hline := Gap.comment (.line hbody) .nil
      rw [List.append_assoc]
      exact hg.append (by simpa using hline)
  · intro h
    generalize hx : p ++ [.char '\n'] = x at h
    induction h generalizing p with
    | nil => exact absurd hx (by simp)
    | @blank c g hc _ ih =>
      cases p with
      | nil => exact .gap .nil
      | cons d p =>
        obtain ⟨rfl, hrest⟩ := List.cons.inj hx
        exact (ih hrest).append (.blank hc .nil)
    | @comment k g hk _ ih =>
      rcases List.append_eq_append_iff.1 hx with ⟨b, hkb, hb⟩ | ⟨p', rfl, hg⟩
      · -- the comment ends with the line feed
        exact hk.lastGap hkb (Text.allBlank_append.1 (hb ▸ Text.allBlank_lineFeed)).1
      · exact (ih hg.symm).append (by simpa using Gap.comment hk .nil)

/-- More blanks may stand behind it. -/
theorem LastGap.append_allBlank {p b : Text} (hp : LastGap p) (hb : Text.AllBlank b) :
    LastGap (p ++ b) := by
  cases hp with
  | gap hp => exact .gap (hp.append (.of_allBlank hb))
  | @openLine g body hg hbody =>
    rcases line_or_not_mem b with hline | ⟨b', r, rfl, hb'⟩
    · have hbody' : .char '\n' ∉ body ++ b := by simp [hbody, hline]
      rw [List.append_assoc]
      exact .openLine hg hbody'
    · -- the line comment ends among the blanks
      have hrest : Text.AllBlank r := fun c hc => hb c (by simp [hc])
      have hcomment : Comment (.char '/' :: .char '/' :: (body ++ b' ++ [.char '\n'])) :=
        .line (by simp [hbody, hb'])
      have hgap := hg.append (.comment hcomment (.of_allBlank hrest))
      exact .gap (by simpa using hgap)

/-- What no layout begins is not layout, unless it is empty. -/
theorem LastGap.eq_nil_of_solid {p : Text} (hp : LastGap p) (hs : Solid p) : p = [] := by
  cases hp with
  | gap hp => exact hp.eq_nil_of_solid (s := []) (by rwa [List.append_nil])
  | openLine hg hbody =>
    obtain rfl := hg.eq_nil_of_solid hs
    exact absurd (solid_cons_iff.1 hs).2 (by simp [beginsComment])

/-! ### The end of a text -/

/-- A text ends with layout, and at most one semicolon in it. -/
theorem finish_cases {s : Text} {n : Nat} (h : finish s = .ok ((), n)) :
    LastGap s ∨ ∃ g p, s = g ++ .char ';' :: p ∧ Gap g ∧ LastGap p := by
  rw [finish] at h
  split at h
  · cases h
  · next found m hpeek =>
    obtain ⟨g, r, rfl, rfl, rfl, hr, hg, hend⟩ := gap_of_peek hpeek
    dsimp only at h
    split at h
    · cases h
    · cases h
    · next k hnone =>
      obtain ⟨k, hnone, -⟩ := Reading.further_eq_ok hnone
      obtain ⟨p, r', hdrop, -, hr', -, -, hp⟩ := gap_of_peek hnone
      obtain rfl := List.head?_eq_none_iff.1 hr'.symm
      rw [List.append_nil] at hdrop
      split at hdrop
      · next hsemicolon =>
        -- the layout goes on behind a semicolon
        cases r with
        | nil => cases hsemicolon
        | cons c r =>
          obtain rfl := Option.some.inj hsemicolon
          rw [← List.drop_drop, List.drop_left] at hdrop
          obtain rfl : r = p := hdrop
          exact .inr ⟨g, r, rfl, hg (by simp), lastGap_iff.2 hp⟩
      · -- nothing stands behind the layout
        rw [List.drop_left] at hdrop
        subst hdrop
        obtain rfl := (lastGap_iff.2 hp).eq_nil_of_solid hr
        rw [List.append_nil]
        exact .inl (lastGap_iff.2 hend)

/-- Where a comma or a bracket stands, a text does not end. -/
theorem eq_nil_of_finish {s : Text} {n : Nat} (hs : Stops s) (h : finish s = .ok ((), n)) :
    s = [] := by
  rcases finish_cases h with hlast | ⟨g, p, rfl, hg, -⟩
  · exact hlast.eq_nil_of_solid hs.solid
  · obtain rfl := hg.eq_nil_of_solid hs.solid
    exact absurd (hs (.char ';') rfl) (by decide)

theorem finish_semicolon {g p : Text} (hg : Gap g) (hp : LastGap p) :
    ∃ n, finish (g ++ .char ';' :: p) = .ok ((), n) := by
  have hsolid : Solid (.char ';' :: p) := solid_cons (by decide) (by decide)
  have hdrop : (g ++ .char ';' :: p).drop (g.length + 1) = p := by
    rw [← List.drop_drop, List.drop_left]
    rfl
  rw [finish, peek_append hg hsolid]
  simp only [List.head?_cons, if_true, hdrop,
    peek_gap_end (lastGap_iff.1 hp) Text.allBlank_lineFeed, Reading.further_ok]
  exact ⟨_, rfl⟩

/-! ### Expressions at the end of a text -/

/-- Blanks may stand before the line feed behind a balanced text, inside of a line comment or not.
-/
theorem Balanced.append_allBlank {cs e b : Text} (h : Balanced cs (e ++ [.char '\n']))
    (hb : Text.AllBlank b) : Balanced cs (e ++ (b ++ [.char '\n'])) := by
  have hblanks : Text.AllBlank (b ++ [.char '\n']) :=
    Text.allBlank_append.2 ⟨hb, Text.allBlank_lineFeed⟩
  generalize hx : e ++ [.char '\n'] = x at h
  -- a unit that is not blank lies before the line feed
  induction h generalizing e with
  | nil => exact absurd hx (by simp)
  | @string q t u cs s hq hu _ ih =>
    have hlast : Text.Trimmed (q :: (u ++ [q])) :=
      Text.trimmed_concat (s := q :: u) (isBlank_of_isQuote hq)
    obtain ⟨e', rfl, rfl⟩ := Text.prefix_of_trimmed (t := s) (by simpa using hx.symm) hlast
      Text.allBlank_lineFeed
    have hstring := Balanced.string hq hu (ih rfl)
    simpa using hstring
  | @comment k cs s hk hs ih =>
    rcases List.append_eq_append_iff.1 hx with ⟨b', hk', hb'⟩ | ⟨e', rfl, he'⟩
    · -- the comment ends with the line feed, or just before it
      obtain ⟨hblank, hrest⟩ := Text.allBlank_append.1 (hb' ▸ Text.allBlank_lineFeed)
      obtain rfl := hs.eq_nil_of_allBlank hrest
      have hgap := lastGap_iff.1 ((hk.lastGap hk' hblank).append_allBlank hb)
      have hbalanced := Balanced.gap hgap .nil
      rwa [List.append_nil, List.append_assoc] at hbalanced
    · rw [List.append_assoc]
      exact .comment hk (ih he'.symm)
  | @opener c d cs s hopener _ ih =>
    obtain ⟨e', rfl, rfl⟩ := Text.prefix_of_trimmed (s := [c]) hx.symm
      (Text.trimmed_concat (s := []) (closerOf?_eq_some hopener).2.2) Text.allBlank_lineFeed
    exact .opener hopener (ih rfl)
  | @closer d cs s hcloser _ ih =>
    obtain ⟨e', rfl, rfl⟩ := Text.prefix_of_trimmed (s := [d]) hx.symm
      (Text.trimmed_concat (s := []) (isCloser_spec hcloser).2.2.2.2.2) Text.allBlank_lineFeed
    exact .closer hcloser (ih rfl)
  | @plain c cs s hplain hcomment hcomma hs ih =>
    cases e with
    | nil =>
      -- only the line feed is left
      obtain ⟨rfl, rfl⟩ := List.cons.inj hx
      obtain rfl := hs.eq_nil_of_allBlank Text.allBlank_nil
      have hbalanced := Balanced.gap (.of_allBlank hblanks) .nil
      rwa [List.append_nil] at hbalanced
    | cons d e =>
      obtain ⟨rfl, rfl⟩ := List.cons.inj hx
      exact .plain hplain
        (beginsComment_append (beginsComment_of_append hcomment) (apart_of_blanks hblanks)) hcomma
        (ih rfl)

/-- An expression is read as itself from a text that ends in blanks behind it. -/
theorem SelfContained.expression_append_allBlank {e b : Text} (he : SelfContained e)
    (hb : Text.AllBlank b) : expression (e ++ b) = .ok (e, (e ++ b).length) := by
  have hsolid : Solid (e ++ b) := he.solid.append he.ne_nil (apart_of_blanks hb)
  have hbalanced := he.spec.2.2.2.append_allBlank hb
  rw [← List.append_assoc] at hbalanced
  have hend := expressionEnd_of_balanced_append_blanks hbalanced Text.allBlank_lineFeed
  have hstrip : Text.strip (e ++ b) = e := by
    rw [strip_solid hsolid, Text.stripEnd_append_blanks he.trimmed hb]
  rw [expression, hsolid]
  simp only [List.drop_zero, hend, List.take_length, hstrip, if_neg he.ne_nil, Nat.zero_add]

/-! ### What counts as an expression -/

/-- What begins with a quote is neither a keyword nor a number. -/
theorem expressionValue_quote {q : CodePoint} (hq : isQuote q = true) (s : Text) :
    expressionValue (q :: s) = .ok (.expr (q :: s)) := by
  have hdigit : Text.isDigit q = false := by
    rcases isQuote_cases hq with rfl | rfl | rfl <;> decide +kernel
  have hnumeral : Numeral.read? (q :: s) = none := by
    rcases isQuote_cases hq with rfl | rfl | rfl <;> simp [Numeral.read?, Numeral.sign, hdigit]
  have hword : ∀ w : Text, w.head?.any isQuote = false → q :: s ≠ w := by
    rintro w hw rfl
    rw [List.head?_cons, Option.any_some, hq] at hw
    cases hw
  have hnull : ¬ (q :: s = "null" ∨ q :: s = "undefined") :=
    not_or.2 ⟨hword "null" rfl, hword "undefined" rfl⟩
  rw [expressionValue, if_neg (hword "true" rfl), if_neg (hword "false" rfl), if_neg hnull,
    hnumeral]

/-- A balanced text that begins with a quote begins with a string. -/
theorem Balanced.of_quote {q : CodePoint} {cs s : Text} (h : Balanced cs (q :: s))
    (hq : isQuote q = true) : ∃ t u r, s = u ++ q :: r ∧ Quoted q t u ∧ Balanced cs r := by
  generalize hx : q :: s = x at h
  cases h with
  | nil => cases hx
  | @string q' t u cs r _ hu hr =>
    obtain ⟨rfl, rfl⟩ := List.cons.inj hx
    exact ⟨t, u, r, rfl, hu, hr⟩
  | @comment k cs r hk _ =>
    obtain ⟨k, rfl⟩ := hk.head
    rw [(List.cons.inj hx).1] at hq
    exact absurd hq (by decide)
  | opener hopener _ =>
    rw [(List.cons.inj hx).1, (closerOf?_eq_some hopener).1] at hq
    cases hq
  | closer hcloser _ =>
    rw [(List.cons.inj hx).1, (isCloser_spec hcloser).1] at hq
    cases hq
  | plain hplain _ _ _ =>
    rw [(List.cons.inj hx).1, hplain.1] at hq
    cases hq

/-- A balanced text is layout, and then nothing or something solid. -/
theorem Balanced.gap_append {cs s : Text} (h : Balanced cs s) :
    ∃ g r, s = g ++ r ∧ Gap g ∧ Solid r ∧ Balanced cs r := by
  induction h with
  | nil => exact ⟨[], [], rfl, .nil, solid_nil, .nil⟩
  | @string q t u cs s hq hu hs _ =>
    have hslash : q ≠ .char '/' := by rcases isQuote_cases hq with rfl | rfl | rfl <;> decide
    exact ⟨[], _, rfl, .nil, solid_cons (isBlank_of_isQuote hq) hslash, .string hq hu hs⟩
  | @comment k cs s hk _ ih =>
    obtain ⟨g, r, rfl, hg, hr, hbalanced⟩ := ih
    exact ⟨k ++ g, r, (List.append_assoc k g r).symm, .comment hk hg, hr, hbalanced⟩
  | opener hopener hs _ =>
    obtain ⟨-, hslash, hblank⟩ := closerOf?_eq_some hopener
    exact ⟨[], _, rfl, .nil, solid_cons hblank hslash, .opener hopener hs⟩
  | closer hcloser hs _ =>
    obtain ⟨-, hslash, -, -, -, hblank⟩ := isCloser_spec hcloser
    exact ⟨[], _, rfl, .nil, solid_cons hblank hslash, .closer hcloser hs⟩
  | @plain c cs s hplain hcomment hcomma hs ih =>
    by_cases hc : Text.isBlank c = true
    · obtain ⟨g, r, rfl, hg, hr, hbalanced⟩ := ih
      exact ⟨c :: g, r, rfl, .blank hc hg, hr, hbalanced⟩
    · exact ⟨[], c :: s, rfl, .nil, solid_cons_iff.2 ⟨by simpa using hc, hcomment⟩,
        .plain hplain hcomment hcomma hs⟩

/-- A balanced text begins with nothing that an expression stops before. -/
theorem Balanced.not_endsValue {c : CodePoint} {s : Text} (h : Balanced [] (c :: s)) :
    endsValue (some c) = false := by
  by_contra hends
  have hstops : Stops (c :: s) := stops_of_endsValue (by simpa using hends)
  have hend := expressionEnd_append h stops_nil
  rw [List.append_nil, expressionEnd_stops hstops] at hend
  simp at hend

/-- The grammar tells an expression by how the text begins; that is to say by what the text is not.
Its value is the one that it has as a keyword, as a number, or as nothing of the kind. -/
theorem bare_iff {v : Value} {e : Text} :
    Bare v e ↔ IsExpression e ∧ expressionValue e = .ok v := by
  constructor
  · rintro (⟨he, hhead, hvalue⟩ | @⟨q, c, t, u, g, r, hq, hu, hg, hc, -, he⟩)
    · refine ⟨⟨he, fun c hc => (hhead c hc).2, ?_⟩, hvalue⟩
      rintro q t u p hq - - rfl
      have hquote := (hhead q rfl).1
      rw [hq] at hquote
      cases hquote
    · refine ⟨⟨he, ?_, ?_⟩, expressionValue_quote hq _⟩
      · intro d hd
        obtain rfl : q = d := by simpa using hd
        rcases isQuote_cases hq with rfl | rfl | rfl <;> decide
      · -- the string ends at the same place, and layout there at the solid character
        rintro q' t' u' p hq' hu' hp h
        obtain ⟨rfl, h⟩ := List.cons.inj h
        obtain ⟨-, rfl⟩ := hu.append_inj hq hu' h
        have hpeek := peek_gap_end (lastGap_iff.1 hp) Text.allBlank_lineFeed
        rw [peek_append hg hc] at hpeek
        cases hpeek
  · rintro ⟨⟨he, hcontainer, hstring⟩, hvalue⟩
    obtain ⟨q, s, rfl, -⟩ := he.head
    by_cases hq : isQuote q = true
    · -- behind the string there is layout, and behind that what makes it an expression
      obtain ⟨t, u, r, hsr, hu, hr⟩ := he.spec.2.2.2.of_quote hq
      obtain ⟨p, rfl, rfl⟩ := Text.prefix_of_trimmed (s := u ++ [q]) (t := r) (by simpa using hsr.symm)
        (Text.trimmed_concat (isBlank_of_isQuote hq)) Text.allBlank_lineFeed
      obtain ⟨g, x, hgx, hg, hx, hbalanced⟩ := hr.gap_append
      rw [List.append_assoc, List.singleton_append] at he hstring hvalue ⊢
      cases x with
      | nil =>
        rw [List.append_nil] at hgx
        exact absurd rfl (hstring q t u p hq hu (lastGap_iff.2 (hgx ▸ hg)))
      | cons d x =>
        obtain ⟨y, rfl, rfl⟩ := Text.prefix_of_trimmed (s := g ++ [d]) (t := x)
          (by simpa using hgx.symm) (Text.trimmed_concat (solid_cons_iff.1 hx).1)
          Text.allBlank_lineFeed
        rw [List.append_assoc, List.singleton_append] at he hvalue ⊢
        obtain rfl := Except.ok.inj ((expressionValue_quote hq _).symm.trans hvalue)
        exact .quoted hq hu hg (hx.of_append (s := [.char '\n'])) hbalanced.not_endsValue he
    · refine .word he (fun c hc => ⟨?_, hcontainer c hc⟩) hvalue
      obtain rfl : q = c := by simpa using hc
      simpa using hq

/-! ### Sentences are what is read -/

theorem sentence_of_read {t : Text} {v : Value} (h : read t = .ok v) : Sentence v t := by
  obtain ⟨n, k, hvalue, hfinish⟩ := value_of_read h
  obtain ⟨g, s, n, rfl, rfl, hg, hfront⟩ := valueSound t v n hvalue
  rw [← List.drop_drop, List.drop_left] at hfinish
  cases hfront with
  | @closed u p r hu hp hend hstring =>
    rw [← List.drop_drop, List.drop_left, List.drop_left] at hfinish
    rcases finish_cases hfinish with hlast | ⟨g', p', rfl, hg', hp'⟩
    · refine .closed hg hu ?_
      by_cases hr : r = []
      · rw [hr, List.append_nil]
        exact lastGap_iff.2 hend
      · exact hlast.append (hp hr)
    · -- behind a string the semicolon would make an expression of it
      have hcontainer : ∀ t, v ≠ .str t := by
        intro t ht
        exact absurd (eq_nil_of_finish (hstring t ht) hfinish) (by simp)
      rw [← List.append_assoc p]
      exact .semicolon hg hu hcontainer ((hp (by simp)).append hg') hp'
  | @bare e b r he hb hr =>
    rw [← List.append_assoc, List.drop_left] at hfinish
    obtain rfl := eq_nil_of_finish hr hfinish
    rw [List.append_nil]
    obtain ⟨hexpr, hv⟩ := bare_iff.1 he
    exact .expression hg hexpr hv hb

/-- What is read as no closed value is an expression, with layout before it and blanks behind it. -/
theorem exists_expression_of_read {t : Text} {v : Value} (h : read t = .ok v)
    (hv : ∀ u, ¬ Closed v u) :
    ∃ g e b, t = g ++ (e ++ b) ∧ Gap g ∧ IsExpression e ∧ expressionValue e = .ok v ∧
      Text.AllBlank b := by
  cases sentence_of_read h with
  | closed _ hu _ => exact absurd hu (hv _)
  | semicolon _ hu _ _ _ => exact absurd hu (hv _)
  | expression hg he hv hb => exact ⟨_, _, _, rfl, hg, he, hv, hb⟩

theorem Closed.ne_nil {v : Value} {u : Text} (h : Closed v u) : u ≠ [] := by
  cases h <;> simp

theorem Closed.solid_append {v : Value} {u : Text} (h : Closed v u) (s : Text) :
    Solid (u ++ s) := by
  obtain ⟨c, r, rfl, hblank, hslash, -⟩ := h.reads.head
  exact solid_cons hblank hslash

theorem read_of_sentence {t : Text} {v : Value} (h : Sentence v t) : read t = .ok v := by
  cases h with
  | @closed g u p hg hu hp =>
    refine read_gap hg (hu.solid_append p) (by simp [hu.ne_nil]) ?_
    exact hu.reads.read_last (lastGap_iff.1 hp) Text.allBlank_lineFeed
  | @semicolon g u p p' hg hu hv hp hp' =>
    obtain ⟨n, hfinish⟩ := finish_semicolon hp hp'
    refine read_gap hg (hu.solid_append _) (by simp [hu.ne_nil]) ?_
    rw [read, hu.value_append hv]
    simp only [List.drop_left, hfinish, Reading.further_ok]
  | @expression g e b hg he hv hb =>
    have hself := he.whole
    have hapart := apart_of_blanks hb
    have hbare := bare_iff.2 ⟨he, hv⟩
    refine read_gap hg (hself.solid.append hself.ne_nil hapart) (by simp [hself.ne_nil]) ?_
    apply read_of_value (k := 0) (value_bare hbare hapart (hself.expression_append_allBlank hb))
    rw [List.drop_length]
    exact peek_solid solid_nil

/-- **The strict reading reads sentences, and nothing else.**  It gives the value `v` exactly for
the texts that the grammar derives with the value `v`.  It derives no text with an integer of more
than `Numeral.maxDigits` digits in it, since such an expression has no value. -/
theorem read_eq_ok_iff (t : Text) (v : Value) : read t = .ok v ↔ Sentence v t :=
  ⟨sentence_of_read, read_of_sentence⟩

example : read "['a'] ; // b" = .ok (.array [.str "a"]) := by decide +kernel

example : read "'a' ;" = .ok (.expr "'a' ;") := by decide +kernel

/-- The grammar is unambiguous. -/
theorem Sentence.unique {t : Text} {v w : Value} (hv : Sentence v t) (hw : Sentence w t) : v = w :=
  Except.ok.inj ((read_of_sentence hv).symm.trans (read_of_sentence hw))

end TailwindUpgrade.Literal
