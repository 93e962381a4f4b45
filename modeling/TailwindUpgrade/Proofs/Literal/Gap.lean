/-
TailwindUpgrade/Proofs/Literal/Gap.lean

Layout as a language.  `Comment` says which texts are complete comments, and `Gap` which are
blanks and complete comments; neither mentions a reader.  A line comment that the end of the text
cuts off is no complete comment, but it becomes one when a line feed is put behind it.  So
`Gap (g ++ "\n")` is what layout at the end of a text amounts to, and no second notion is needed to
read it.

Main results: layout is read to its end whatever follows (`layout_append`), what is read as layout
is a gap (`gap_of_layout`), and a gap whose last blanks are cut off is still read to its end
(`layout_of_gap_append_blanks`).  `Solid` texts are those that no layout begins.
-/
import TailwindUpgrade.Literal.Expression
import TailwindUpgrade.Proofs.Text.Trim

namespace TailwindUpgrade.Literal

/-! ### Comments -/

/-- A complete comment: a line comment with its line feed, or a block comment that is closed. -/
inductive Comment : Text → Prop
  | line {body : Text} : (.char '\n') ∉ body →
      Comment (.char '/' :: .char '/' :: (body ++ [.char '\n']))
  | block {body : Text} : ¬ [.char '*', .char '/'] <:+: body →
      Comment (.char '/' :: .char '*' :: (body ++ [.char '*', .char '/']))

/-- Blanks cut off the end of a complete comment leave it whole, or a line comment without its line
feed. -/
theorem Comment.cut_blanks {k p b : Text} (hk : Comment k) (h : k = p ++ b)
    (hb : Text.AllBlank b) :
    p = k ∨ ∃ body, (.char '\n') ∉ body ∧ p = .char '/' :: .char '/' :: body := by
  cases hk with
  | @line body hbody =>
    -- the first blank that is cut off is the line feed
    rcases List.eq_nil_or_concat b with rfl | ⟨b', c, rfl⟩
    · exact .inl (by simp [h])
    · rw [List.concat_eq_append, ← List.append_assoc, ← List.cons_append, ← List.cons_append] at h
      obtain ⟨hfront, -⟩ := List.append_inj' h rfl
      have hb' : Text.AllBlank b' := fun d hd => hb d (by simp [hd])
      have hmarks : Text.Trimmed [.char '/', .char '/'] := by
        intro d hd
        obtain rfl : CodePoint.char '/' = d := by simpa using hd
        decide
      obtain ⟨body', rfl, rfl⟩ :=
        Text.prefix_of_trimmed (s := [.char '/', .char '/']) hfront hmarks hb'
      exact .inr ⟨body', fun hmem => hbody (by simp [hmem]), rfl⟩
  | @block body hbody =>
    -- the comment ends with a slash, so there is nothing to cut off
    have hpb : p ++ b = (.char '/' :: .char '*' :: (body ++ [.char '*'])) ++ [.char '/'] := by
      rw [← h]
      simp
    have htrimmed : Text.Trimmed (p ++ b) := by
      rw [hpb]
      exact Text.trimmed_concat (by decide)
    obtain rfl := Text.eq_nil_of_trimmed htrimmed hb
    exact .inl (by simp [h])

theorem lineLength_append {body : Text} (h : (.char '\n') ∉ body) (s : Text) :
    lineLength (body ++ .char '\n' :: s) = body.length + 1 := by
  induction body with
  | nil => simp [lineLength]
  | cons c body ih =>
    rw [List.mem_cons, not_or] at h
    rw [List.cons_append, lineLength, if_neg (Ne.symm h.1), ih h.2, List.length_cons]

theorem lineLength_of_not_mem {body : Text} (h : (.char '\n') ∉ body) :
    lineLength body = body.length := by
  induction body with
  | nil => rfl
  | cons c body ih =>
    rw [List.mem_cons, not_or] at h
    rw [lineLength, if_neg (Ne.symm h.1), ih h.2, List.length_cons]

theorem blockLength?_append {body : Text} (h : ¬ [.char '*', .char '/'] <:+: body) (s : Text) :
    blockLength? (body ++ .char '*' :: .char '/' :: s) = some (body.length + 2) := by
  induction body with
  | nil => simp [blockLength?]
  | cons c body ih =>
    rw [List.infix_cons_iff, not_or] at h
    rw [List.cons_append, blockLength?, ih h.2]
    · simp
    · -- the mark that closes the comment does not begin here
      intro rest hc hrest
      cases body with
      | nil => simp at hrest
      | cons d body =>
        obtain ⟨rfl, -⟩ := List.cons.inj hrest
        exact h.1 ⟨body, by simp [hc]⟩

theorem body_of_blockLength? {s : Text} {n : Nat} (h : blockLength? s = some n) :
    ∃ body r, s = body ++ .char '*' :: .char '/' :: r ∧ n = body.length + 2 ∧
      ¬ [.char '*', .char '/'] <:+: body := by
  induction s generalizing n with
  | nil => simp [blockLength?] at h
  | cons c s ih =>
    by_cases hclose : c = .char '*' ∧ ∃ r, s = .char '/' :: r
    · obtain ⟨rfl, r, rfl⟩ := hclose
      simp only [blockLength?, Option.some.injEq] at h
      exact ⟨[], r, rfl, h.symm, by simp⟩
    · -- the mark begins later, and so not here either
      rw [blockLength?] at h
      · obtain ⟨m, hm, rfl⟩ := Option.map_eq_some_iff.1 h
        obtain ⟨body, r, rfl, rfl, hbody⟩ := ih hm
        refine ⟨c :: body, r, rfl, by simp, ?_⟩
        rw [List.infix_cons_iff, not_or]
        refine ⟨?_, hbody⟩
        rintro ⟨t, ht⟩
        rw [List.cons_append, List.cons_append, List.nil_append, List.cons.injEq] at ht
        refine hclose ⟨ht.1.symm, t ++ .char '*' :: .char '/' :: r, ?_⟩
        rw [← ht.2, List.cons_append]
      · intro r hc hs
        exact hclose ⟨hc, r, hs⟩

theorem line_or_not_mem (s : Text) :
    (.char '\n') ∉ s ∨ ∃ body r, s = body ++ .char '\n' :: r ∧ (.char '\n') ∉ body := by
  by_cases h : (.char '\n') ∈ s
  · obtain ⟨body, r, rfl, hbody⟩ := List.eq_append_cons_of_mem h
    exact .inr ⟨body, r, rfl, hbody⟩
  · exact .inl h

theorem Comment.head {k : Text} (h : Comment k) : ∃ k', k = .char '/' :: k' := by
  cases h <;> exact ⟨_, rfl⟩

theorem Comment.begins {k : Text} (h : Comment k) (s : Text) : beginsComment (k ++ s) = true := by
  cases h <;> rfl

theorem Comment.length_pos {k : Text} (h : Comment k) : 0 < k.length := by
  cases h <;> simp

theorem beginsComment_of_ne {c : CodePoint} (h : c ≠ .char '/') (s : Text) :
    beginsComment (c :: s) = false := by
  unfold beginsComment
  split
  · next heq =>
    obtain ⟨hc, -⟩ := List.cons.inj heq
    exact absurd hc h
  · rfl

theorem beginsComment_slash (d : CodePoint) (s : Text) :
    beginsComment (.char '/' :: d :: s) = (d == .char '/' || d == .char '*') := rfl

/-- No comment begins where none began before, unless the second character of its mark is put
behind a slash. -/
theorem beginsComment_append {c : CodePoint} {x s : Text} (h : beginsComment (c :: x) = false)
    (hs : ∀ d ∈ s.head?, d ≠ .char '/' ∧ d ≠ .char '*') :
    beginsComment (c :: (x ++ s)) = false := by
  by_cases hc : c = .char '/'
  · subst hc
    cases x with
    | cons d x => exact h
    | nil =>
      -- the slash is the last character of the first text
      cases s with
      | nil => exact h
      | cons d s =>
        obtain ⟨hslash, hstar⟩ := hs d rfl
        rw [List.nil_append, beginsComment_slash]
        simp [hslash, hstar]
  · exact beginsComment_of_ne hc _

theorem beginsComment_of_append {c : CodePoint} {x s : Text}
    (h : beginsComment (c :: (x ++ s)) = false) : beginsComment (c :: x) = false := by
  cases x with
  | cons d x =>
    by_cases hc : c = .char '/'
    · subst hc
      exact h
    · exact beginsComment_of_ne hc _
  | nil =>
    unfold beginsComment
    split
    · next heq => cases (List.cons.inj heq).2
    · rfl

/-- A complete comment is read, whatever follows it. -/
theorem comment_append {k : Text} (h : Comment k) (s : Text) :
    comment (k ++ s) = .ok ((), k.length) := by
  cases h with
  | line hbody =>
    simp only [List.cons_append, List.append_assoc, List.nil_append, comment]
    rw [lineLength_append hbody]
    simp
  | block hbody =>
    simp only [List.cons_append, List.append_assoc, List.nil_append, comment]
    rw [blockLength?_append hbody]
    simp

/-- A line comment that the text ends in is read as well. -/
theorem comment_openLine {body : Text} (h : (.char '\n') ∉ body) :
    comment (.char '/' :: .char '/' :: body) = .ok ((), body.length + 2) := by
  rw [comment, lineLength_of_not_mem h]

theorem comment_of_not_begins {s : Text} (h : beginsComment s = false) :
    comment s = .ok ((), 0) := by
  unfold comment
  split
  · simp [beginsComment] at h
  · simp [beginsComment] at h
  · rfl

/-- What the reader of comments takes: nothing, a complete comment, or a line comment up to the end
of the text. -/
theorem comment_cases {s : Text} {n : Nat} (h : comment s = .ok ((), n)) :
    (n = 0 ∧ beginsComment s = false) ∨ (∃ k r, Comment k ∧ s = k ++ r ∧ n = k.length) ∨
      ∃ body, (.char '\n') ∉ body ∧ s = .char '/' :: .char '/' :: body ∧ n = s.length := by
  unfold comment at h
  split at h
  · next rest =>
    -- a line comment, up to its line feed or to the end of the text
    obtain rfl : lineLength rest + 2 = n := by simpa using h
    rcases line_or_not_mem rest with hopen | ⟨body, r, rfl, hbody⟩
    · exact .inr (.inr ⟨rest, hopen, rfl, by simp [lineLength_of_not_mem hopen]⟩)
    · refine .inr (.inl ⟨_, r, .line hbody, by simp, ?_⟩)
      simp [lineLength_append hbody]
  · next rest =>
    split at h
    · next m hm =>
      obtain rfl : m + 2 = n := by simpa using h
      obtain ⟨body, r, rfl, rfl, hbody⟩ := body_of_blockLength? hm
      exact .inr (.inl ⟨_, r, .block hbody, by simp, by simp⟩)
    · simp at h
  · next hline hblock =>
    -- neither of the two marks begins the text
    obtain rfl : 0 = n := by simpa using h
    refine .inl ⟨rfl, ?_⟩
    unfold beginsComment
    split
    · next c rest =>
      rw [Bool.or_eq_false_iff]
      refine ⟨?_, ?_⟩
      · by_contra hc
        exact hline rest (by rw [show c = .char '/' by simpa using hc])
      · by_contra hc
        exact hblock rest (by rw [show c = .char '*' by simpa using hc])
    · rfl

/-! ### Gaps -/

/-- Layout that is complete: blanks and complete comments. -/
inductive Gap : Text → Prop
  | nil : Gap []
  | blank {c : CodePoint} {g : Text} : Text.isBlank c = true → Gap g → Gap (c :: g)
  | comment {k g : Text} : Comment k → Gap g → Gap (k ++ g)

theorem Gap.append {g g' : Text} (hg : Gap g) (hg' : Gap g') : Gap (g ++ g') := by
  induction hg with
  | nil => exact hg'
  | blank hc _ ih => exact .blank hc ih
  | @comment k g hk _ ih =>
    rw [List.append_assoc]
    exact .comment hk ih

theorem Gap.of_allBlank {b : Text} (h : Text.AllBlank b) : Gap b := by
  induction b with
  | nil => exact .nil
  | cons c b ih => exact .blank (h c (by simp)) (ih fun d hd => h d (by simp [hd]))

/-! ### Reading gaps -/

theorem layout_blank {c : CodePoint} (h : Text.isBlank c = true) (s : Text) :
    layout (c :: s) = (layout s).further 1 := by
  rw [layout, if_pos h]

theorem isBlank_slash : Text.isBlank (.char '/') = false := by decide

theorem layout_comment {k : Text} (h : Comment k) (s : Text) :
    layout (k ++ s) = (layout s).further k.length := by
  have hread := comment_append h s
  obtain ⟨k', rfl⟩ := h.head
  rw [List.cons_append] at hread ⊢
  rw [layout, if_neg (by simp [isBlank_slash]), hread, List.length_cons]
  simp only [List.drop_left]

/-- A gap is read to its end, whatever follows it. -/
theorem layout_append {g : Text} (h : Gap g) (s : Text) :
    layout (g ++ s) = (layout s).further g.length := by
  induction h with
  | nil => exact (Reading.further_zero _).symm
  | @blank c g hc _ ih =>
    rw [List.cons_append, layout_blank hc, ih, Reading.further_further, List.length_cons,
      Nat.add_comm]
  | @comment k g hk _ ih =>
    rw [List.append_assoc, layout_comment hk, ih, Reading.further_further, List.length_append]

/-- A text that no layout begins. -/
def Solid (s : Text) : Prop := layout s = .ok ((), 0)

theorem solid_nil : Solid [] := by
  rw [Solid, layout]

theorem Reading.further_eq_ok {α : Type} {r : Reading α} {m n : Nat} {a : α}
    (h : r.further m = .ok (a, n)) : ∃ k, r = .ok (a, k) ∧ n = m + k := by
  rcases r with f | ⟨b, k⟩
  · cases h
  · simp only [Reading.further, Except.ok.injEq, Prod.mk.injEq] at h
    exact ⟨k, by rw [h.1], h.2.symm⟩

theorem Reading.map_eq_ok {α β : Type} {r : Reading α} {f : α → β} {n : Nat} {b : β}
    (h : r.map f = .ok (b, n)) : ∃ a, r = .ok (a, n) ∧ f a = b := by
  rcases r with e | ⟨a, k⟩
  · cases h
  · obtain ⟨rfl, rfl⟩ := Prod.mk.inj (Except.ok.inj h)
    exact ⟨a, rfl, rfl⟩

/-- What is left of a text behind its first character is shorter than the text. -/
theorem length_drop_lt {c : CodePoint} {s : Text} {len : Nat} (h : (c :: s).length = len) (m : Nat) :
    (s.drop m).length < len := by
  rw [← h, List.length_cons, List.length_drop]
  omega

/-- What begins with no blank is read as layout from the comment that it begins with, if it does. -/
theorem layout_not_blank {c : CodePoint} (h : Text.isBlank c = false) (s : Text) {n : Nat}
    (hread : layout (c :: s) = .ok ((), n)) :
    (n = 0 ∧ beginsComment (c :: s) = false) ∨
      ∃ m k, comment (c :: s) = .ok ((), m + 1) ∧ layout (s.drop m) = .ok ((), k) ∧
        n = m + 1 + k := by
  rw [layout, if_neg (by simp [h])] at hread
  split at hread
  · cases hread
  · next hcomment =>
    refine .inl ⟨by simpa using hread.symm, ?_⟩
    rcases comment_cases hcomment with ⟨-, hbegins⟩ | ⟨k, r, hk, -, hlength⟩ | ⟨_, -, -, hlength⟩
    · exact hbegins
    · have := hk.length_pos
      omega
    · simp at hlength
  · next m hcomment =>
    obtain ⟨k, hk, hn⟩ := Reading.further_eq_ok hread
    exact .inr ⟨m, k, hcomment, hk, hn⟩

theorem solid_cons_iff {c : CodePoint} {s : Text} :
    Solid (c :: s) ↔ Text.isBlank c = false ∧ beginsComment (c :: s) = false := by
  constructor
  · intro h
    by_cases hc : Text.isBlank c = true
    · rw [Solid, layout_blank hc] at h
      obtain ⟨k, -, hk⟩ := Reading.further_eq_ok h
      omega
    · have hblank : Text.isBlank c = false := by simpa using hc
      rcases layout_not_blank hblank s h with ⟨-, hbegins⟩ | ⟨m, k, -, -, hlength⟩
      · exact ⟨hblank, hbegins⟩
      · omega
  · rintro ⟨hc, hbegins⟩
    rw [Solid, layout, if_neg (by simp [hc]), comment_of_not_begins hbegins]

theorem solid_cons {c : CodePoint} {s : Text} (hblank : Text.isBlank c = false)
    (hslash : c ≠ .char '/') : Solid (c :: s) := by
  exact solid_cons_iff.2 ⟨hblank, beginsComment_of_ne hslash s⟩

/-- A text stays solid when what is put behind it does not begin with the second character of a
comment mark. -/
theorem Solid.append {x s : Text} (hx : Solid x) (hne : x ≠ [])
    (hs : ∀ c ∈ s.head?, c ≠ .char '/' ∧ c ≠ .char '*') : Solid (x ++ s) := by
  cases x with
  | nil => exact absurd rfl hne
  | cons c x =>
    obtain ⟨hblank, hbegins⟩ := solid_cons_iff.1 hx
    rw [List.cons_append, solid_cons_iff]
    exact ⟨hblank, beginsComment_append hbegins hs⟩

theorem Solid.of_append {x s : Text} (h : Solid (x ++ s)) : Solid x := by
  cases x with
  | nil => exact solid_nil
  | cons c x =>
    obtain ⟨hc, hbegins⟩ := solid_cons_iff.1 h
    exact solid_cons_iff.2 ⟨hc, beginsComment_of_append hbegins⟩

/-! ### What is read is a gap -/

/-- What is read as layout is a gap, except that the end of the text may cut a line comment off;
no layout begins the text after it. -/
theorem gap_of_layout {s : Text} {n : Nat} (h : layout s = .ok ((), n)) :
    ∃ g r, s = g ++ r ∧ n = g.length ∧ Solid r ∧ (r ≠ [] → Gap g) ∧ Gap (g ++ [.char '\n']) := by
  have hnewline : Gap [.char '\n'] := .blank (by decide) .nil
  induction hlen : s.length using Nat.strongRecOn generalizing s n with
  | ind len ih =>
    cases s with
    | nil =>
      have hn : n = 0 := by simpa [layout, eq_comm] using h
      exact ⟨[], [], rfl, hn, solid_nil, fun _ => .nil, hnewline⟩
    | cons c s =>
      by_cases hc : Text.isBlank c = true
      · rw [layout_blank hc] at h
        obtain ⟨k, hk, rfl⟩ := Reading.further_eq_ok h
        obtain ⟨g, r, rfl, rfl, hr, hg, hend⟩ := ih s.length (by simp [← hlen]) hk rfl
        exact ⟨c :: g, r, rfl, by simp [Nat.add_comm], hr, fun hne => .blank hc (hg hne),
          .blank hc hend⟩
      · have hblank : Text.isBlank c = false := by simpa using hc
        rcases layout_not_blank hblank s h with ⟨rfl, hbegins⟩ | ⟨m, k, hcomment, hk, rfl⟩
        · exact ⟨[], c :: s, rfl, rfl, solid_cons_iff.2 ⟨hblank, hbegins⟩, fun _ => .nil, hnewline⟩
        · obtain ⟨g, r, hs, rfl, hr, hg, hend⟩ :=
            ih _ (length_drop_lt hlen m) hk rfl
          rcases comment_cases hcomment with
            ⟨h0, -⟩ | ⟨k, r', hk', hcs, hlength⟩ | ⟨body, hbody, hcs, hlength⟩
          · omega
          · -- a complete comment, and the gap after it
            have hrest : s.drop m = r' := by
              have := congrArg (List.drop (m + 1)) hcs
              rwa [hlength, List.drop_left, ← hlength] at this
            rw [← hrest, hs, ← List.append_assoc] at hcs
            refine ⟨k ++ g, r, hcs, by rw [List.length_append, hlength], hr,
              fun hne => .comment hk' (hg hne), ?_⟩
            rw [List.append_assoc]
            exact .comment hk' hend
          · -- a line comment that the text ends in
            have hrest : s.drop m = [] := by
              rw [List.drop_eq_nil_iff]
              simp at hlength
              omega
            rw [hrest] at hs
            obtain ⟨rfl, rfl⟩ := List.append_eq_nil_iff.1 hs.symm
            refine ⟨c :: s, [], by simp, by simpa using hlength, solid_nil, by simp, ?_⟩
            rw [hcs]
            have := Gap.comment (.line hbody) .nil
            simpa using this

theorem layout_openLine {body : Text} (h : (.char '\n') ∉ body) :
    layout (.char '/' :: .char '/' :: body) = .ok ((), body.length + 2) := by
  rw [layout, if_neg (by simp [isBlank_slash]), comment_openLine h]
  have hrest : (CodePoint.char '/' :: body).drop (body.length + 1) = [] := by simp
  simp only [hrest, layout, Reading.further]

/-- Blanks cut off the end of a gap may take the line feed of a line comment with them; what is left
is layout to its end all the same, if the text ends there. -/
theorem layout_of_gap_append_blanks {p b : Text} (h : Gap (p ++ b)) (hb : Text.AllBlank b) :
    layout p = .ok ((), p.length) := by
  generalize hx : p ++ b = x at h
  induction h generalizing p with
  | nil =>
    obtain ⟨rfl, -⟩ := List.append_eq_nil_iff.1 hx
    exact solid_nil
  | @blank c g hc _ ih =>
    cases p with
    | nil => exact solid_nil
    | cons d p =>
      obtain ⟨rfl, hx'⟩ := List.cons.inj hx
      rw [layout_blank hc, ih hx', Reading.further_ok, List.length_cons, Nat.add_comm]
  | @comment k g hk _ ih =>
    rcases List.append_eq_append_iff.1 hx with ⟨b', hk', hb'⟩ | ⟨p', rfl, hg⟩
    · -- the comment reaches into the blanks
      have hlast : p = k ∨ ∃ body, (.char '\n') ∉ body ∧ p = .char '/' :: .char '/' :: body :=
        hk.cut_blanks hk' (Text.allBlank_append.1 (hb' ▸ hb)).1
      rcases hlast with rfl | ⟨body, hbody, rfl⟩
      · have := layout_comment hk []
        rw [List.append_nil, solid_nil, Reading.further_ok] at this
        exact this
      · exact layout_openLine hbody
    · rw [layout_comment hk, ih hg.symm, Reading.further_ok, List.length_append]

/-! ### Looking past a gap -/

theorem peek_append {g s : Text} (hg : Gap g) (hs : Solid s) :
    peek (g ++ s) = .ok (s.head?, g.length) := by
  rw [peek, layout_append hg, hs]
  simp only [Reading.further, Nat.add_zero, List.drop_left]

theorem peek_solid {s : Text} (hs : Solid s) : peek s = .ok (s.head?, 0) :=
  peek_append .nil hs

/-- Past the layout that ends a text there is nothing. -/
theorem peek_gap_end {p b : Text} (h : Gap (p ++ b)) (hb : Text.AllBlank b) :
    peek p = .ok (none, p.length) := by
  rw [peek, layout_of_gap_append_blanks h hb]
  simp

theorem gap_of_peek {s : Text} {found : Option CodePoint} {n : Nat}
    (h : peek s = .ok (found, n)) :
    ∃ g r, s = g ++ r ∧ n = g.length ∧ found = r.head? ∧ Solid r ∧ (r ≠ [] → Gap g) ∧
      Gap (g ++ [.char '\n']) := by
  unfold peek at h
  split at h
  · cases h
  · next m hm =>
    obtain ⟨g, r, rfl, rfl, hr, hg, hend⟩ := gap_of_layout hm
    simp only [List.drop_left, Except.ok.injEq, Prod.mk.injEq] at h
    exact ⟨g, r, rfl, h.2.symm, h.1.symm, hr, hg, hend⟩

theorem expect_append {g s : Text} {mark : CodePoint} (hg : Gap g) (hs : Solid (mark :: s)) :
    expect mark (g ++ mark :: s) = .ok ((), g.length + 1) := by
  rw [expect, peek_append hg hs]
  simp

theorem gap_of_expect {mark : CodePoint} {s : Text} {n : Nat} (h : expect mark s = .ok ((), n)) :
    ∃ g r, s = g ++ mark :: r ∧ n = g.length + 1 ∧ Gap g := by
  rw [expect] at h
  split at h
  · cases h
  · next found m hpeek =>
    obtain ⟨g, r, rfl, rfl, rfl, -, hg, -⟩ := gap_of_peek hpeek
    split at h
    · next hfound =>
      obtain ⟨r, rfl⟩ := List.head?_eq_some_iff.1 hfound
      obtain ⟨-, rfl⟩ := Prod.mk.inj (Except.ok.inj h)
      exact ⟨g, r, rfl, rfl, hg (List.cons_ne_nil mark r)⟩
    · cases h

/-- The mark that ends an entry: a comma, or the closing bracket. -/
def endMark (closer : CodePoint) (comma : Bool) : CodePoint := if comma then .char ',' else closer

theorem separator_append {g s : Text} {closer : CodePoint} {comma : Bool} (hg : Gap g)
    (hs : Solid (endMark closer comma :: s)) (hcloser : closer ≠ .char ',') :
    separator closer (g ++ endMark closer comma :: s) = .ok (comma, g.length) := by
  rw [separator, peek_append hg hs]
  cases comma with
  | true => simp [endMark]
  | false => simp [endMark, hcloser]

theorem gap_of_separator {s : Text} {closer : CodePoint} {comma : Bool} {n : Nat}
    (h : separator closer s = .ok (comma, n)) :
    ∃ g r, s = g ++ endMark closer comma :: r ∧ n = g.length ∧ Gap g := by
  unfold separator at h
  split at h
  · cases h
  · next found m hpeek =>
    obtain ⟨g, r, rfl, rfl, rfl, -, hg, -⟩ := gap_of_peek hpeek
    have hmark : ∀ {c : CodePoint}, r.head? = some c → ∃ r', r = c :: r' := by
      intro c hc
      cases r with
      | nil => cases hc
      | cons d r => exact ⟨r, by rw [Option.some.inj hc]⟩
    split at h
    · next hcomma =>
      obtain ⟨r, rfl⟩ := hmark hcomma
      simp only [Except.ok.injEq, Prod.mk.injEq] at h
      obtain ⟨rfl, rfl⟩ := h
      exact ⟨g, r, rfl, rfl, hg (by simp)⟩
    · split at h
      · next hcloser =>
        obtain ⟨r, rfl⟩ := hmark hcloser
        simp only [Except.ok.injEq, Prod.mk.injEq] at h
        obtain ⟨rfl, rfl⟩ := h
        exact ⟨g, r, rfl, rfl, hg (by simp)⟩
      · cases h

end TailwindUpgrade.Literal
