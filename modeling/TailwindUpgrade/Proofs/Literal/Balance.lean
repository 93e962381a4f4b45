/-
TailwindUpgrade/Proofs/Literal/Balance.lean

Expressions as a language.  `Balanced closers s` says that the text `s` is complete where the
closing brackets `closers` are due: its strings are closed, its comments complete, its brackets
paired, and no comma stands outside of brackets.  Each rule puts one unit before a balanced text.

An expression that ends in a line comment without its line feed is only complete with something
behind it; as for layout, that something is a line feed.  So `Balanced [] (s ++ "\n")` is what it
means for `s` to be an expression from its first to its last character.

Main results: a balanced text is run through up to what stops an expression
(`expressionEnd_append`), what is run through is balanced (`balanced_of_expressionEnd`), and
balanced texts can be put one behind the other (`Balanced.append`).
-/
import TailwindUpgrade.Proofs.Literal.Gap
import TailwindUpgrade.Proofs.Literal.Quotation

namespace TailwindUpgrade.Literal

/-- A character that means nothing to an expression, unless it begins a comment. -/
def IsPlain (c : CodePoint) : Prop :=
  isQuote c = false ∧ closerOf? c = none ∧ isCloser c = false

/-- A text that is complete where the given closing brackets are due, the innermost first. -/
inductive Balanced : Text → Text → Prop
  | nil : Balanced [] []
  | string {q : CodePoint} {t u cs s : Text} :
      isQuote q = true → Quoted q t u → Balanced cs s → Balanced cs (q :: (u ++ q :: s))
  | comment {k cs s : Text} : Comment k → Balanced cs s → Balanced cs (k ++ s)
  | opener {c d : CodePoint} {cs s : Text} :
      closerOf? c = some d → Balanced (d :: cs) s → Balanced cs (c :: s)
  | closer {d : CodePoint} {cs s : Text} :
      isCloser d = true → Balanced cs s → Balanced (d :: cs) (d :: s)
  | plain {c : CodePoint} {cs s : Text} :
      IsPlain c → beginsComment (c :: s) = false → (c = .char ',' → cs ≠ []) →
      Balanced cs s → Balanced cs (c :: s)

/-- A text that an expression stops before: nothing, a comma, or a closing bracket. -/
def Stops (s : Text) : Prop := ∀ c ∈ s.head?, c = .char ',' ∨ isCloser c = true

/-! ### Classes of characters -/

theorem closerOf?_eq_some {c d : CodePoint} (h : closerOf? c = some d) :
    isQuote c = false ∧ c ≠ .char '/' ∧ Text.isBlank c = false := by
  unfold closerOf? at h
  split at h
  · decide
  · decide
  · decide
  · cases h

theorem isCloser_cases {c : CodePoint} (h : isCloser c = true) :
    c = .char ')' ∨ c = .char ']' ∨ c = .char '}' := by
  simpa [isCloser, or_assoc] using h

theorem isCloser_bracket : isCloser ']' = true := rfl

theorem isCloser_brace : isCloser '\x7d' = true := rfl

theorem solid_bracket (s : Text) : Solid (.char '[' :: s) := solid_cons (by decide) (by decide)

theorem solid_brace (s : Text) : Solid (.char '\x7b' :: s) := solid_cons (by decide) (by decide)

theorem isCloser_spec {c : CodePoint} (h : isCloser c = true) :
    isQuote c = false ∧ c ≠ .char '/' ∧ closerOf? c = none ∧ c ≠ .char ',' ∧ c ≠ .char '*' ∧
      Text.isBlank c = false := by
  rcases isCloser_cases h with rfl | rfl | rfl <;> decide

theorem isQuote_cases {c : CodePoint} (h : isQuote c = true) :
    c = .char '\"' ∨ c = .char '\'' ∨ c = .char '\x60' := by
  simpa [isQuote, or_assoc] using h

theorem isBlank_of_isQuote {c : CodePoint} (h : isQuote c = true) : Text.isBlank c = false := by
  rcases isQuote_cases h with rfl | rfl | rfl <;> decide

theorem ne_of_isBlank {c d : CodePoint} (hc : Text.isBlank c = true)
    (hd : Text.isBlank d = false) : c ≠ d := by
  rintro rfl
  rw [hc] at hd
  cases hd

theorem isPlain_of_isBlank {c : CodePoint} (h : Text.isBlank c = true) : IsPlain c := by
  refine ⟨?_, ?_, ?_⟩
  · by_contra hq
    rw [isBlank_of_isQuote (by simpa using hq)] at h
    cases h
  · rcases hcloser : closerOf? c with - | d
    · rfl
    · rw [(closerOf?_eq_some hcloser).2.2] at h
      cases h
  · by_contra hcloser
    rw [(isCloser_spec (by simpa using hcloser)).2.2.2.2.2] at h
    cases h

/-- What stops an expression does not complete the mark of a comment. -/
theorem Stops.apart {s : Text} (h : Stops s) : ∀ c ∈ s.head?, c ≠ .char '/' ∧ c ≠ .char '*' := by
  intro c hc
  rcases h c hc with rfl | hcloser
  · decide
  · exact ⟨(isCloser_spec hcloser).2.1, (isCloser_spec hcloser).2.2.2.2.1⟩

theorem Stops.solid {s : Text} (h : Stops s) : Solid s := by
  cases s with
  | nil => exact solid_nil
  | cons c s =>
    rcases h c rfl with rfl | hcloser
    · exact solid_cons (by decide) (by decide)
    · exact solid_cons (isCloser_spec hcloser).2.2.2.2.2 (isCloser_spec hcloser).2.1

theorem stops_nil : Stops [] := by
  intro c hc
  cases hc

/-! ### Steps of the run through an expression -/

theorem drop_string (q : CodePoint) (u s : Text) :
    (u ++ q :: s).drop (u.length + 2 - 1) = s := by
  rw [Nat.add_sub_assoc (by decide), List.drop_append]
  simp

theorem expressionEnd_string {q : CodePoint} {t u : Text} (hq : isQuote q = true)
    (hu : Quoted q t u) (cs s : Text) :
    expressionEnd cs (q :: (u ++ q :: s)) = (expressionEnd cs s).further (u.length + 2) := by
  rw [expressionEnd.eq_def]
  simp only [if_pos hq, string_append hq hu, drop_string]

theorem expressionEnd_comment {k : Text} (hk : Comment k) (cs s : Text) :
    expressionEnd cs (k ++ s) = (expressionEnd cs s).further k.length := by
  have hread := comment_append hk s
  have hbegins := hk.begins s
  obtain ⟨k, rfl⟩ := hk.head
  rw [List.cons_append] at hread hbegins ⊢
  have hquote : ¬ isQuote (.char '/') = true := by decide
  rw [expressionEnd.eq_def]
  simp only [if_neg hquote, if_pos hbegins, hread, List.length_cons, Nat.add_sub_cancel,
    List.drop_left]

theorem expressionEnd_opener {c d : CodePoint} (h : closerOf? c = some d) (cs s : Text) :
    expressionEnd cs (c :: s) = (expressionEnd (d :: cs) s).further 1 := by
  obtain ⟨hquote, hslash, -⟩ := closerOf?_eq_some h
  rw [expressionEnd.eq_def]
  simp only [hquote, beginsComment_of_ne hslash, h, Bool.false_eq_true, if_false]

theorem expressionEnd_closer {d : CodePoint} (h : isCloser d = true) (cs s : Text) :
    expressionEnd (d :: cs) (d :: s) = (expressionEnd cs s).further 1 := by
  obtain ⟨hquote, hslash, hopener, -⟩ := isCloser_spec h
  rw [expressionEnd.eq_def]
  simp only [hquote, beginsComment_of_ne hslash, hopener, h, Bool.false_eq_true, if_false, if_true]

theorem expressionEnd_plain {c : CodePoint} {cs s : Text} (h : IsPlain c)
    (hcomment : beginsComment (c :: s) = false) (hcomma : c = .char ',' → cs ≠ []) :
    expressionEnd cs (c :: s) = (expressionEnd cs s).further 1 := by
  obtain ⟨hquote, hopener, hcloser⟩ := h
  have hcomma' : ¬ (c = .char ',' ∧ cs = []) := fun ⟨hc, hcs⟩ => hcomma hc hcs
  rw [expressionEnd.eq_def]
  simp only [hquote, hcomment, hopener, hcloser, if_neg hcomma', Bool.false_eq_true, if_false]

/-- Layout is run through like a part of the expression. -/
theorem expressionEnd_gap {g : Text} (hg : Gap g) (cs s : Text) :
    expressionEnd cs (g ++ s) = (expressionEnd cs s).further g.length := by
  induction hg with
  | nil => exact (Reading.further_zero _).symm
  | @blank c g hc _ ih =>
    have hcomma : c = .char ',' → cs ≠ [] := by
      rintro rfl
      exact absurd hc (by decide)
    rw [List.cons_append, expressionEnd_plain (isPlain_of_isBlank hc)
      (beginsComment_of_ne (ne_of_isBlank hc isBlank_slash) _) hcomma, ih, Reading.further_further,
      List.length_cons, Nat.add_comm]
  | @comment k g hk _ ih =>
    rw [List.append_assoc, expressionEnd_comment hk, ih, Reading.further_further,
      List.length_append]

theorem expressionEnd_stops {s : Text} (h : Stops s) : expressionEnd [] s = .ok ((), 0) := by
  cases s with
  | nil => rw [expressionEnd]
  | cons c s =>
    rw [expressionEnd.eq_def]
    rcases h c rfl with rfl | hcloser
    · have hquote : isQuote (.char ',') = false := by decide
      have hslash : beginsComment (.char ',' :: s) = false := beginsComment_of_ne (by decide) s
      simp only [hquote, hslash, closerOf?, Bool.false_eq_true, if_false]
      rfl
    · obtain ⟨hquote, hslash, hopener, -⟩ := isCloser_spec hcloser
      simp only [hquote, beginsComment_of_ne hslash, hopener, hcloser, Bool.false_eq_true, if_false,
        if_true]

/-! ### Balanced texts are run through -/

/-- A balanced text is run through, up to whatever stops an expression. -/
theorem expressionEnd_append {cs x s : Text} (h : Balanced cs x) (hs : Stops s) :
    expressionEnd cs (x ++ s) = .ok ((), x.length) := by
  induction h with
  | nil => exact expressionEnd_stops hs
  | @string q t u cs x hq hu _ ih =>
    rw [List.cons_append, List.append_assoc, List.cons_append, expressionEnd_string hq hu, ih,
      Reading.further_ok]
    simp only [List.length_cons, List.length_append]
    congr 2
    omega
  | @comment k cs x hk _ ih =>
    rw [List.append_assoc, expressionEnd_comment hk, ih, Reading.further_ok, List.length_append]
  | opener hopener _ ih =>
    rw [List.cons_append, expressionEnd_opener hopener, ih, Reading.further_ok, List.length_cons,
      Nat.add_comm]
  | closer hcloser _ ih =>
    rw [List.cons_append, expressionEnd_closer hcloser, ih, Reading.further_ok, List.length_cons,
      Nat.add_comm]
  | plain hplain hcomment hcomma _ ih =>
    rw [List.cons_append, expressionEnd_plain hplain (beginsComment_append hcomment hs.apart) hcomma,
      ih, Reading.further_ok, List.length_cons, Nat.add_comm]

/-! ### Putting balanced texts together -/

theorem Balanced.append {cs outer x y : Text} (hx : Balanced cs x) (hy : Balanced outer y)
    (hapart : ∀ c ∈ y.head?, c ≠ .char '/' ∧ c ≠ .char '*') :
    Balanced (cs ++ outer) (x ++ y) := by
  induction hx with
  | nil => exact hy
  | string hq hu _ ih =>
    rw [List.cons_append, List.append_assoc, List.cons_append]
    exact .string hq hu ih
  | comment hk _ ih =>
    rw [List.append_assoc]
    exact .comment hk ih
  | opener hopener _ ih => exact .opener hopener ih
  | closer hcloser _ ih => exact .closer hcloser ih
  | plain hplain hcomment hcomma _ ih =>
    refine .plain hplain (beginsComment_append hcomment hapart) ?_ ih
    intro hc hnil
    exact hcomma hc (List.append_eq_nil_iff.1 hnil).1

/-- A gap before a balanced text. -/
theorem Balanced.gap {g cs s : Text} (hg : Gap g) (hs : Balanced cs s) : Balanced cs (g ++ s) := by
  induction hg with
  | nil => exact hs
  | blank hc _ ih =>
    refine .plain (isPlain_of_isBlank hc) (beginsComment_of_ne (ne_of_isBlank hc isBlank_slash) _)
      ?_ ih
    rintro rfl
    exact absurd hc (by decide)
  | comment hk _ ih =>
    rw [List.append_assoc]
    exact .comment hk ih

/-- Characters before a balanced text that mean nothing to it. -/
theorem Balanced.plains {cs w s : Text}
    (hw : ∀ c ∈ w, IsPlain c ∧ c ≠ .char '/' ∧ c ≠ .char ',') (hs : Balanced cs s) :
    Balanced cs (w ++ s) := by
  induction w with
  | nil => exact hs
  | cons c w ih =>
    obtain ⟨hplain, hslash, hcomma⟩ := hw c (by simp)
    exact .plain hplain (beginsComment_of_ne hslash _) (fun hc => absurd hc hcomma)
      (ih fun d hd => hw d (by simp [hd]))

theorem Balanced.lineFeed {cs s : Text} (h : Balanced cs s) : Balanced cs (s ++ [.char '\n']) := by
  have hline : Balanced [] [CodePoint.char '\n'] :=
    .gap (.blank (by decide) .nil) .nil
  have := h.append hline (by decide)
  rwa [List.append_nil] at this

/-! ### Blanks at the end of a balanced text -/

/-- Blanks close no bracket. -/
theorem Balanced.eq_nil_of_allBlank {cs s : Text} (h : Balanced cs s) (hs : Text.AllBlank s) :
    cs = [] := by
  induction h with
  | nil => rfl
  | @string q t u cs s hq _ _ _ =>
    have hblank : Text.isBlank q = true := hs q (by simp)
    rw [isBlank_of_isQuote hq] at hblank
    cases hblank
  | @comment k cs s hk _ _ =>
    obtain ⟨k, rfl⟩ := hk.head
    exact absurd (hs (.char '/') (by simp)) (by decide)
  | @opener c d cs s hopener _ _ =>
    have hblank : Text.isBlank c = true := hs c (by simp)
    rw [(closerOf?_eq_some hopener).2.2] at hblank
    cases hblank
  | @closer d cs s hcloser _ _ =>
    have hblank : Text.isBlank d = true := hs d (by simp)
    rw [(isCloser_spec hcloser).2.2.2.2.2] at hblank
    cases hblank
  | plain _ _ _ _ ih => exact ih fun d hd => hs d (by simp [hd])

/-- Blanks cut off the end of a balanced text may take the line feed of a line comment with them;
what is left is run through all the same, if the text ends there. -/
theorem expressionEnd_of_balanced_append_blanks {cs p b : Text} (h : Balanced cs (p ++ b))
    (hb : Text.AllBlank b) : expressionEnd cs p = .ok ((), p.length) := by
  generalize hx : p ++ b = x at h
  -- a unit that is not blank lies before the blanks that were cut off
  have hunit : ∀ {u s p : Text}, p ++ b = u ++ s → Text.Trimmed u → ∃ p', p = u ++ p' ∧ p' ++ b = s :=
    fun hp hu => by
      obtain ⟨p', hp', hs⟩ := Text.prefix_of_trimmed hp.symm hu hb
      exact ⟨p', hp', hs.symm⟩
  induction h generalizing p with
  | nil =>
    obtain ⟨rfl, -⟩ := List.append_eq_nil_iff.1 hx
    exact expressionEnd_stops stops_nil
  | @string q t u cs s hq hu _ ih =>
    have hlast : Text.Trimmed (q :: (u ++ [q])) :=
      Text.trimmed_concat (s := q :: u) (isBlank_of_isQuote hq)
    obtain ⟨p', rfl, hp'⟩ := hunit (u := q :: (u ++ [q])) (s := s) (by simpa using hx) hlast
    rw [List.cons_append, List.append_assoc, List.singleton_append, expressionEnd_string hq hu,
      ih hp', Reading.further_ok]
    simp only [List.length_cons, List.length_append]
    congr 2
    omega
  | @comment k cs s hk hs ih =>
    rcases List.append_eq_append_iff.1 hx with ⟨b', hk', hb'⟩ | ⟨p', rfl, hp'⟩
    · -- the comment reaches into the blanks, so that no bracket can be due
      rw [hb'] at hb
      obtain ⟨hblank, hrest⟩ := Text.allBlank_append.1 hb
      obtain rfl := hs.eq_nil_of_allBlank hrest
      have hend : expressionEnd [] [] = .ok ((), 0) := expressionEnd_stops stops_nil
      rcases hk.cut_blanks hk' hblank with rfl | ⟨body, hbody, rfl⟩
      · have := expressionEnd_comment hk [] []
        rwa [List.append_nil, hend, Reading.further_ok, Nat.add_zero] at this
      · have hdrop : (CodePoint.char '/' :: body).drop (body.length + 2 - 1) = [] := by simp
        have hquote : ¬ isQuote (.char '/') = true := by decide
        rw [expressionEnd.eq_def]
        simp only [if_neg hquote, beginsComment, comment_openLine hbody, hdrop, hend]
        simp [Reading.further]
    · rw [expressionEnd_comment hk, ih hp'.symm, Reading.further_ok, List.length_append]
  | @opener c d cs s hopener _ ih =>
    obtain ⟨p', rfl, hp'⟩ := hunit (u := [c]) (s := s) hx
      (Text.trimmed_concat (s := []) (closerOf?_eq_some hopener).2.2)
    rw [List.singleton_append, expressionEnd_opener hopener, ih hp', Reading.further_ok,
      List.length_cons, Nat.add_comm]
  | @closer d cs s hcloser _ ih =>
    obtain ⟨p', rfl, hp'⟩ := hunit (u := [d]) (s := s) hx
      (Text.trimmed_concat (s := []) (isCloser_spec hcloser).2.2.2.2.2)
    rw [List.singleton_append, expressionEnd_closer hcloser, ih hp', Reading.further_ok,
      List.length_cons, Nat.add_comm]
  | @plain c cs s hplain hcomment hcomma hs ih =>
    cases p with
    | nil =>
      rw [List.nil_append] at hx
      obtain rfl := (Balanced.plain hplain hcomment hcomma hs).eq_nil_of_allBlank (hx ▸ hb)
      exact expressionEnd_stops stops_nil
    | cons d p =>
      obtain ⟨rfl, hp'⟩ := List.cons.inj hx
      have hp : p ++ b = s := hp'
      have hbegins : beginsComment (d :: p) = false := by
        rw [← hp] at hcomment
        exact beginsComment_of_append hcomment
      rw [expressionEnd_plain hplain hbegins hcomma, ih hp, Reading.further_ok, List.length_cons,
        Nat.add_comm]

/-! ### What is run through is balanced -/

/-- One step of the run through an expression: from the closers due and the text ahead to those
after it. -/
inductive Step : Text → Text → Text → Text → Prop
  | string {q : CodePoint} {t u cs s : Text} :
      isQuote q = true → Quoted q t u → Step cs (q :: (u ++ q :: s)) cs s
  | comment {k cs s : Text} : Comment k → Step cs (k ++ s) cs s
  | openLine {body cs : Text} :
      (.char '\n') ∉ body → Step cs (.char '/' :: .char '/' :: body) cs []
  | opener {c d : CodePoint} {cs s : Text} :
      closerOf? c = some d → Step cs (c :: s) (d :: cs) s
  | closer {d : CodePoint} {cs s : Text} : isCloser d = true → Step (d :: cs) (d :: s) cs s
  | plain {c : CodePoint} {cs s : Text} :
      IsPlain c → beginsComment (c :: s) = false → (c = .char ',' → cs ≠ []) →
      Step cs (c :: s) cs s

theorem Step.length_lt {cs s cs' s' : Text} (h : Step cs s cs' s') : s'.length < s.length := by
  cases h with
  | string => simp only [List.length_cons, List.length_append]; omega
  | comment hk =>
    have := hk.length_pos
    simp only [List.length_append]
    omega
  | openLine => simp
  | opener => simp
  | closer => simp
  | plain => simp

/-- A string is taken in one step. -/
theorem step_of_string {c : CodePoint} {s t : Text} {m : Nat} (hq : isQuote c = true)
    (h : string (c :: s) = .ok (t, m)) (cs : Text) :
    Step cs (c :: s) cs (s.drop (m - 1)) ∧ 0 < m ∧ m ≤ s.length + 1 := by
  obtain ⟨q, u, s', hs, rfl, hu⟩ := quoted_of_string h
  obtain ⟨rfl, rfl⟩ := List.cons.inj hs
  rw [drop_string]
  refine ⟨.string hq hu, by omega, ?_⟩
  simp only [List.length_append, List.length_cons]
  omega

/-- A comment is taken in one step, and so is a line comment that ends with the text. -/
theorem step_of_comment {c : CodePoint} {s : Text} {m : Nat} (hbegins : beginsComment (c :: s) = true)
    (h : comment (c :: s) = .ok ((), m)) (cs : Text) :
    Step cs (c :: s) cs (s.drop (m - 1)) ∧ 0 < m ∧ m ≤ s.length + 1 := by
  rcases comment_cases h with ⟨-, hnot⟩ | ⟨k, s', hk, hs, rfl⟩ | ⟨body, hbody, hs, rfl⟩
  · rw [hbegins] at hnot
    cases hnot
  · have hrest : s.drop (k.length - 1) = s' := by
      obtain ⟨k, rfl⟩ := hk.head
      obtain ⟨-, rfl⟩ := List.cons.inj hs
      simp
    have hlength := congrArg List.length hs
    rw [List.length_append, List.length_cons] at hlength
    rw [hrest, hs]
    exact ⟨.comment hk, hk.length_pos, by omega⟩
  · have hrest : s.drop ((c :: s).length - 1) = [] := by simp
    rw [hrest, hs]
    exact ⟨.openLine hbody, by simp, by simp [← hs]⟩

/-- A run through an expression is at its end, or makes a step and goes on. -/
theorem step_of_expressionEnd {cs s : Text} {n : Nat} (h : expressionEnd cs s = .ok ((), n)) :
    (cs = [] ∧ Stops s ∧ n = 0) ∨
      ∃ cs' s' m, Step cs s cs' s' ∧ expressionEnd cs' s' = .ok ((), m) ∧
        n + s'.length = s.length + m := by
  cases s with
  | nil =>
    cases cs with
    | nil => exact .inl ⟨rfl, stops_nil, by simpa [expressionEnd, eq_comm] using h⟩
    | cons d cs => simp [expressionEnd] at h
  | cons c s =>
    rw [expressionEnd.eq_def] at h
    simp only at h
    split at h
    · next hq =>
      split at h
      · cases h
      · next t m hstring =>
        obtain ⟨k, hk, rfl⟩ := Reading.further_eq_ok h
        obtain ⟨hstep, hpos, hle⟩ := step_of_string hq hstring cs
        refine .inr ⟨cs, s.drop (m - 1), k, hstep, hk, ?_⟩
        rw [List.length_drop, List.length_cons]
        omega
    · next hq =>
      have hq : isQuote c = false := by simpa using hq
      split at h
      · next hbegins =>
        split at h
        · cases h
        · next m hcomment =>
          obtain ⟨k, hk, rfl⟩ := Reading.further_eq_ok h
          obtain ⟨hstep, hpos, hle⟩ := step_of_comment hbegins hcomment cs
          refine .inr ⟨cs, s.drop (m - 1), k, hstep, hk, ?_⟩
          rw [List.length_drop, List.length_cons]
          omega
      · next hbegins =>
        -- a single character, which is a bracket, the comma at the end, or plain
        have hbegins : beginsComment (c :: s) = false := by simpa using hbegins
        split at h
        · next d hopener =>
          obtain ⟨k, hk, rfl⟩ := Reading.further_eq_ok h
          exact .inr ⟨d :: cs, s, k, .opener hopener, hk, by rw [List.length_cons]; omega⟩
        · next hopener =>
          split at h
          · next hcloser =>
            split at h
            · refine .inl ⟨rfl, ?_, by simpa [eq_comm] using h⟩
              intro d hd
              obtain rfl : c = d := by simpa using hd
              exact .inr hcloser
            · split at h
              · next due outer hdue =>
                subst hdue
                obtain ⟨k, hk, rfl⟩ := Reading.further_eq_ok h
                exact .inr ⟨outer, s, k, .closer hcloser, hk, by rw [List.length_cons]; omega⟩
              · cases h
          · next hcloser =>
            split at h
            · next hcomma =>
              refine .inl ⟨hcomma.2, ?_, by simpa [eq_comm] using h⟩
              intro d hd
              obtain rfl : c = d := by simpa using hd
              exact .inl hcomma.1
            · next hcomma =>
              obtain ⟨k, hk, rfl⟩ := Reading.further_eq_ok h
              have hplain : IsPlain c := ⟨hq, hopener, by simpa using hcloser⟩
              exact .inr ⟨cs, s, k, .plain hplain hbegins fun hc hcs => hcomma ⟨hc, hcs⟩, hk,
                by rw [List.length_cons]; omega⟩

/-- What an expression takes is balanced, except that the end of the text may cut a line comment
off; and it ends before what stops it. -/
theorem balanced_of_expressionEnd {cs s : Text} {n : Nat}
    (h : expressionEnd cs s = .ok ((), n)) :
    ∃ x r, s = x ++ r ∧ n = x.length ∧ Stops r ∧ (r ≠ [] → Balanced cs x) ∧
      Balanced cs (x ++ [.char '\n']) := by
  induction hlen : s.length using Nat.strongRecOn generalizing cs s n with
  | ind len ih =>
    rcases step_of_expressionEnd h with ⟨rfl, hs, rfl⟩ | ⟨cs', s', m, hstep, hrest, hn⟩
    · exact ⟨[], s, rfl, rfl, hs, fun _ => .nil, Balanced.nil.lineFeed⟩
    · obtain ⟨x, r, hs', rfl, hr, hx, hend⟩ := ih s'.length (hlen ▸ hstep.length_lt) hrest rfl
      cases hstep with
      | @string q t u cs _ hq hu =>
        subst hs'
        refine ⟨q :: (u ++ q :: x), r, by simp, ?_, hr, fun hne => .string hq hu (hx hne), ?_⟩
        · simp only [List.length_cons, List.length_append] at hn ⊢
          omega
        · have := Balanced.string hq hu hend
          simpa using this
      | @comment k cs _ hk =>
        subst hs'
        refine ⟨k ++ x, r, by simp, ?_, hr, fun hne => .comment hk (hx hne), ?_⟩
        · simp only [List.length_append] at hn ⊢
          omega
        · rw [List.append_assoc]
          exact .comment hk hend
      | @openLine body cs hbody =>
        obtain ⟨rfl, rfl⟩ := List.append_eq_nil_iff.1 hs'.symm
        obtain rfl := hend.eq_nil_of_allBlank Text.allBlank_lineFeed
        refine ⟨_, [], (List.append_nil _).symm, by simpa using hn, stops_nil, by simp, ?_⟩
        have := Balanced.comment (.line hbody) .nil
        simpa using this
      | @opener c d cs _ hopener =>
        subst hs'
        refine ⟨c :: x, r, rfl, ?_, hr, fun hne => .opener hopener (hx hne), .opener hopener hend⟩
        simp only [List.length_cons] at hn ⊢
        omega
      | @closer d cs _ hcloser =>
        subst hs'
        refine ⟨d :: x, r, rfl, ?_, hr, fun hne => .closer hcloser (hx hne), .closer hcloser hend⟩
        simp only [List.length_cons] at hn ⊢
        omega
      | @plain c cs _ hplain hbegins hcomma =>
        subst hs'
        have hbegins := beginsComment_of_append hbegins
        refine ⟨c :: x, r, rfl, ?_, hr, fun hne => .plain hplain hbegins hcomma (hx hne), ?_⟩
        · simp only [List.length_cons] at hn ⊢
          omega
        · exact .plain hplain (beginsComment_append hbegins (by decide)) hcomma hend

end TailwindUpgrade.Literal
