/-
TailwindUpgrade/Proofs/Literal/Range.lean

How far readers go.  A reader of the front of a text takes no more characters than there are, and a
fault of it lies among them or right behind the last; and every reader of something that a text is
made of, a value, a key, a string, an expression, takes a character at least.  `Within least s r`
says this of a reading `r` of the text `s`, with `least` being 0 or 1.

What a reading leaves of a text is read by the next one, so a bound for each of the two is one for
both (`Within.further`).  That holds for a string that is tried and turns out to begin an expression
as well: the expression is read from where the string was.  And a backslash at the very end, with
nothing behind it to be escaped, is reported where its string begins.

Main results: a bound for each reader, the last of them that for values (`value_within`), by
induction on the length of the text; a container gets its own from that of its entries
(`delimited_within`).
-/
import TailwindUpgrade.Proofs.Literal.Soundness

namespace TailwindUpgrade.Literal

variable {α β : Type} {least n : Nat} {s : Text} {r : Reading α}

/-- A reading of the text `s` that takes `least` characters or more, but no more than there are; or
a fault that lies in the text or at its end. -/
def Within (least : Nat) (s : Text) : Reading α → Prop
  | .ok (_, n) => least ≤ n ∧ n ≤ s.length
  | .error f => f.offset ≤ s.length

/-! ### One reading after another -/

theorem Within.taken {a : α} (h : Within least s r) (hr : r = .ok (a, n)) :
    least ≤ n ∧ n ≤ s.length := by
  subst hr
  exact h

theorem Within.fault {f : Fault} (h : Within least s r) (hr : r = .error f) :
    f.offset ≤ s.length := by
  subst hr
  exact h

theorem Within.mono {more : Nat} (h : Within more s r) (hle : least ≤ more) : Within least s r := by
  rcases r with f | ⟨a, k⟩
  · exact h
  · exact ⟨hle.trans h.1, h.2⟩

theorem Within.map {f : α → β} (h : Within least s r) : Within least s (r.map f) := by
  rcases r with e | ⟨a, k⟩
  · exact h
  · exact h

/-- A reading that was started further on. -/
theorem Within.further (hn : n ≤ s.length) (h : Within least (s.drop n) r) :
    Within (n + least) s (r.further n) := by
  have hlength : (s.drop n).length = s.length - n := List.length_drop
  rcases r with f | ⟨a, k⟩
  · have hoffset : f.offset ≤ (s.drop n).length := h
    show n + f.offset ≤ s.length
    omega
  · obtain ⟨hleast, hmost⟩ : least ≤ k ∧ k ≤ (s.drop n).length := h
    show n + least ≤ n + k ∧ n + k ≤ s.length
    omega

/-- A reading that was started further on, and is to take no more than what it took there. -/
theorem Within.later (hn : n ≤ s.length) (h : Within least (s.drop n) r) :
    Within least s (r.further n) :=
  (h.further hn).mono (Nat.le_add_left least n)

/-! ### Layout -/

theorem lineLength_le (s : Text) : lineLength s ≤ s.length := by
  induction s with
  | nil => exact Nat.le_refl 0
  | cons c s ih =>
    rw [lineLength, List.length_cons]
    split <;> omega

theorem blockLength?_le (h : blockLength? s = some n) : n ≤ s.length := by
  obtain ⟨body, rest, rfl, rfl, -⟩ := body_of_blockLength? h
  simp only [List.length_append, List.length_cons]
  omega

theorem comment_within (s : Text) : Within 0 s (comment s) := by
  unfold comment
  split
  · next rest =>
    have hline := lineLength_le rest
    show 0 ≤ lineLength rest + 2 ∧ lineLength rest + 2 ≤ rest.length + 2
    omega
  · next rest =>
    split
    · next n hblock =>
      have hle := blockLength?_le hblock
      show 0 ≤ n + 2 ∧ n + 2 ≤ rest.length + 2
      omega
    · exact Nat.zero_le _
  · exact ⟨Nat.le_refl 0, Nat.zero_le _⟩

theorem layout_within (s : Text) : Within 0 s (layout s) := by
  induction hlen : s.length using Nat.strongRecOn generalizing s with
  | ind len ih =>
    cases s with
    | nil =>
      rw [layout]
      exact ⟨Nat.le_refl 0, Nat.le_refl 0⟩
    | cons c s =>
      have hrest : ∀ m, Within 0 ((c :: s).drop (m + 1)) (layout (s.drop m)) := by
        intro m
        exact ih _ (length_drop_lt hlen m) _ rfl
      rw [layout]
      split
      · exact (hrest 0).later (Nat.succ_le_succ (Nat.zero_le _))
      · have hcomment := comment_within (c :: s)
        split
        · next f hfault => exact hcomment.fault hfault
        · exact ⟨Nat.le_refl 0, Nat.zero_le _⟩
        · next m htaken => exact (hrest m).later (hcomment.taken htaken).2

theorem peek_within (s : Text) : Within 0 s (peek s) := by
  have hlayout := layout_within s
  rw [peek]
  split
  · next f hfault => exact hlayout.fault hfault
  · next m htaken => exact hlayout.taken htaken

/-- Behind layout with a character after it there is that character at least. -/
theorem lt_of_peek {found : Option CodePoint} {c : CodePoint} (h : peek s = .ok (found, n))
    (hfound : found = some c) : n < s.length := by
  obtain ⟨g, r, rfl, rfl, rfl, -⟩ := gap_of_peek h
  have hpos : 0 < r.length := List.length_pos_of_mem (List.mem_of_head? hfound)
  rw [List.length_append]
  omega

/-! ### Marks -/

theorem expect_within (mark : CodePoint) (s : Text) : Within 1 s (expect mark s) := by
  have hpeek := peek_within s
  rw [expect]
  split
  · next f hfault => exact hpeek.fault hfault
  · next found m htaken =>
    split
    · next hfound => exact ⟨Nat.le_add_left 1 m, lt_of_peek htaken hfound⟩
    · exact (hpeek.taken htaken).2

theorem separator_within (closer : CodePoint) (s : Text) : Within 0 s (separator closer s) := by
  have hpeek := peek_within s
  rw [separator]
  split
  · next f hfault => exact hpeek.fault hfault
  · next found m htaken =>
    split
    · exact hpeek.taken htaken
    · split
      · exact hpeek.taken htaken
      · exact (hpeek.taken htaken).2

/-- The mark after an entry is still ahead. -/
theorem lt_of_separator {closer : CodePoint} {comma : Bool}
    (h : separator closer s = .ok (comma, n)) :
    n < s.length := by
  obtain ⟨g, r, rfl, rfl, -⟩ := gap_of_separator h
  simp only [List.length_append, List.length_cons]
  omega

theorem endOfEntry_within (closer : CodePoint) (s : Text) : Within 0 s (endOfEntry closer s) := by
  have hseparator := separator_within closer s
  rw [endOfEntry]
  split
  · next f hfault => exact hseparator.fault hfault
  · next comma m htaken =>
    have hlt := lt_of_separator htaken
    show 0 ≤ (if comma then m + 1 else m) ∧ (if comma then m + 1 else m) ≤ s.length
    split <;> omega

theorem finish_within (s : Text) : Within 0 s (finish s) := by
  have hpeek := peek_within s
  rw [finish]
  split
  · next f hfault => exact hpeek.fault hfault
  · next found m htaken =>
    have hle : (if found = some (.char ';') then m + 1 else m) ≤ s.length := by
      split
      · next hfound => exact lt_of_peek htaken hfound
      · exact (hpeek.taken htaken).2
    have hlast := (peek_within _).later hle
    dsimp only
    split
    · next f hfault => exact hlast.fault hfault
    · next c k hread => exact (hlast.taken hread).2
    · next k hread => exact hlast.taken hread

/-! ### Strings and expressions -/

/-- A string takes its two quotes at least. -/
theorem string_within (s : Text) : Within 1 s (string s) := by
  rcases hread : string s with f | ⟨t, n⟩
  · -- the fault is at the quote, wherever the string was given up
    have hoffset : f.offset = 0 := by
      cases s with
      | nil =>
        obtain rfl := Except.error.inj hread
        rfl
      | cons q s =>
        rw [string] at hread
        split at hread
        · cases hread
        · obtain rfl := Except.error.inj hread
          rfl
    show f.offset ≤ s.length
    omega
  · obtain ⟨q, u, rest, rfl, rfl, -⟩ := quoted_of_string hread
    show 1 ≤ u.length + 2 ∧ u.length + 2 ≤ (q :: (u ++ q :: rest)).length
    simp only [List.length_append, List.length_cons]
    omega

theorem expressionEnd_within (closers s : Text) : Within 0 s (expressionEnd closers s) := by
  induction hlen : s.length using Nat.strongRecOn generalizing closers s with
  | ind len ih =>
    cases s with
    | nil =>
      cases closers with
      | nil =>
        rw [expressionEnd]
        exact ⟨Nat.le_refl 0, Nat.le_refl 0⟩
      | cons =>
        rw [expressionEnd]
        exact Nat.le_refl 0
    | cons c s =>
      have hrest : ∀ ds m, Within 0 ((c :: s).drop (m + 1)) (expressionEnd ds (s.drop m)) := by
        intro ds m
        exact ih _ (length_drop_lt hlen m) _ _ rfl
      -- a character that is taken by itself
      have hone : ∀ ds, Within 0 (c :: s) ((expressionEnd ds s).further 1) := by
        intro ds
        exact (hrest ds 0).later (Nat.succ_le_succ (Nat.zero_le _))
      rw [expressionEnd.eq_def]
      dsimp only
      split
      · next hquote =>
        have hstring := string_within (c :: s)
        split
        · next f hfault => exact hstring.fault hfault
        · next t m htaken =>
          obtain ⟨hpos, hle⟩ := hstring.taken htaken
          have hafter := hrest closers (m - 1)
          rw [Nat.sub_add_cancel hpos] at hafter
          exact hafter.later hle
      · split
        · next hbegins =>
          have hcomment := comment_within (c :: s)
          split
          · next f hfault => exact hcomment.fault hfault
          · next m htaken =>
            obtain ⟨-, hpos, -⟩ := step_of_comment hbegins htaken closers
            have hafter := hrest closers (m - 1)
            rw [Nat.sub_add_cancel hpos] at hafter
            exact hafter.later (hcomment.taken htaken).2
        · split
          · next due _ => exact hone (due :: closers)
          · split
            · split
              · exact ⟨Nat.le_refl 0, Nat.zero_le _⟩
              · split
                · exact hone _
                · exact Nat.zero_le _
            · split
              · exact ⟨Nat.le_refl 0, Nat.zero_le _⟩
              · exact hone closers

theorem expression_within (s : Text) : Within 1 s (expression s) := by
  have hlayout := layout_within s
  rw [expression]
  split
  · next f hfault => exact hlayout.fault hfault
  · next m htaken =>
    have hle := (hlayout.taken htaken).2
    have hend := expressionEnd_within [] (s.drop m)
    dsimp only
    split
    · next f hfault => exact ((hend.further hle).fault (by rw [hfault]; rfl))
    · next k hk =>
      split
      · exact hle
      · next hsource =>
        -- the source is not empty, so there is something that was taken for it
        have hpos : 0 < k := by
          rw [Nat.pos_iff_ne_zero]
          rintro rfl
          exact hsource rfl
        obtain ⟨-, hmost⟩ := hend.taken hk
        rw [List.length_drop] at hmost
        show 1 ≤ m + k ∧ m + k ≤ s.length
        omega

/-! ### Keys and entries -/

theorem key_within (s : Text) : Within 1 s (key s) := by
  have hpeek := peek_within s
  rw [key]
  split
  · next f hfault => exact hpeek.fault hfault
  · next found m htaken =>
    have hle := (hpeek.taken htaken).2
    split
    · exact (string_within _).later hle
    · split
      · next name hname =>
        obtain ⟨hbare, rest, hrest⟩ := bareKey_of_bareKey? hname
        obtain ⟨c, t, rfl, -⟩ := hbare.head
        have hlength := congrArg List.length hrest
        simp only [List.length_drop, List.length_append, List.length_cons] at hlength
        show 1 ≤ m + (c :: t).length ∧ m + (c :: t).length ≤ s.length
        rw [List.length_cons]
        omega
      · exact hle

/-- A spread begins with its three dots. -/
theorem dots_length_le (h : dots.isPrefixOf s = true) : 3 ≤ s.length :=
  (List.isPrefixOf_iff_prefix.1 h).length_le

theorem head_within (s : Text) : Within 1 s (head s) := by
  rw [head]
  split
  · next hdots => exact (expression_within _).map.later (dots_length_le hdots)
  · have hkey := key_within s
    split
    · next f hfault => exact hkey.fault hfault
    · next name m htaken =>
      obtain ⟨hpos, hle⟩ := hkey.taken htaken
      have hpeek := (peek_within (s.drop m)).further hle
      split
      · next f hfault => exact hpeek.fault hfault
      · next found k hread =>
        obtain ⟨hm, hk⟩ := hpeek.taken hread
        split
        · next hfound =>
          obtain ⟨i, hi, rfl⟩ := Reading.further_eq_ok hread
          have hlt := lt_of_peek hi hfound
          rw [List.length_drop] at hlt
          show 1 ≤ m + i + 1 ∧ m + i + 1 ≤ s.length
          omega
        · split
          · exact ⟨by omega, hk⟩
          · exact hk

theorem rawField_within (s : Text) : Within 1 s (rawField s) := by
  have hhead := head_within s
  rw [rawField]
  split
  · next f hfault => exact hhead.fault hfault
  · next source m htaken => exact hhead.taken htaken
  · next name m htaken => exact hhead.taken htaken
  · next name m htaken => exact (expression_within _).map.later (hhead.taken htaken).2

theorem rawItem_within (s : Text) : Within 1 s (rawItem s) := by
  rw [rawItem]
  split
  · next hdots => exact (expression_within _).map.later (dots_length_le hdots)
  · exact expression_within s

/-! ### Values -/

theorem bare_within (s : Text) : Within 1 s (bare s) := by
  have hexpression := expression_within s
  rw [bare]
  split
  · next f hfault => exact hexpression.fault hfault
  · next source n htaken =>
    obtain ⟨hpos, hle⟩ := hexpression.taken htaken
    split
    · exact ⟨hpos, hle⟩
    · exact hle

theorem quotedValue_within (s : Text) : Within 1 s (quotedValue s) := by
  have hstring := string_within s
  rw [quotedValue]
  split
  · next f hfault => exact hstring.fault hfault
  · next t m htaken =>
    obtain ⟨hpos, hle⟩ := hstring.taken htaken
    have hpeek := (peek_within (s.drop m)).further hle
    split
    · next f hfault => exact hpeek.fault hfault
    · next found k hread =>
      split
      · exact ⟨by have := (hpeek.taken hread).1; omega, (hpeek.taken hread).2⟩
      · -- no string after all: the expression is read from the quote on
        exact (expression_within s).map

/-- The entries of a container, and the bracket that closes it, if each entry is within its text. -/
theorem delimited_within {closer : CodePoint} {entry : Text → Reading α} {len : Nat}
    (hentry : ∀ x : Text, x.length ≤ len → Within 1 x (entry x)) (hs : s.length ≤ len) :
    Within 1 s (delimited closer entry s) := by
  induction hlen : s.length using Nat.strongRecOn generalizing s with
  | ind size ih =>
    cases s with
    | nil =>
      rw [delimited]
      split
      · next f hfault => exact (hentry [] hs).fault hfault
      · exact Nat.le_refl 0
    | cons c s =>
      have hpeek := peek_within (c :: s)
      rw [delimited_of_ne_nil (by simp)]
      split
      · next f hfault => exact hpeek.fault hfault
      · next found m htaken =>
        obtain ⟨-, hm⟩ := hpeek.taken htaken
        have hfirst := (hentry ((c :: s).drop m) (by rw [List.length_drop]; omega)).further hm
        split
        · next hfound => exact ⟨Nat.le_add_left 1 m, lt_of_peek htaken hfound⟩
        · split
          · next f hfault => exact hfirst.fault hfault
          · next a k hread =>
            obtain ⟨-, hk⟩ := hfirst.taken hread
            have hmark := (separator_within closer ((c :: s).drop k)).further hk
            split
            · next f hfault => exact hmark.fault hfault
            · next i hi =>
              obtain ⟨j, hj, rfl⟩ := Reading.further_eq_ok hi
              have hlt := lt_of_separator hj
              rw [List.length_drop] at hlt
              show 1 ≤ k + j + 1 ∧ k + j + 1 ≤ (c :: s).length
              omega
            · next i hi =>
              obtain ⟨j, hj, rfl⟩ := Reading.further_eq_ok hi
              have hlt := lt_of_separator hj
              rw [List.length_drop] at hlt
              have hshort := length_drop_lt hlen (k + j)
              have hothers : Within 1 ((c :: s).drop (k + j + 1))
                  (delimited closer entry ((c :: s).drop (k + j + 1))) :=
                ih _ hshort (by rw [List.drop_succ_cons]; omega) rfl
              exact hothers.map.later (by omega)

theorem field_within (h : ∀ x : Text, x.length ≤ s.length → Within 1 x (value x)) :
    Within 1 s (field s) := by
  have hhead := head_within s
  rw [field]
  split
  · next f hfault => exact hhead.fault hfault
  · next source m htaken => exact hhead.taken htaken
  · next name m htaken => exact hhead.taken htaken
  · next name m htaken =>
    have hvalue := h (s.drop m) (by rw [List.length_drop]; omega)
    exact hvalue.map.later (hhead.taken htaken).2

theorem item_within (h : ∀ x : Text, x.length ≤ s.length → Within 1 x (value x)) :
    Within 1 s (item s) := by
  rw [item]
  split
  · next hdots => exact (expression_within _).map.later (dots_length_le hdots)
  · exact h s (Nat.le_refl _)

theorem fields_within (h : ∀ x : Text, x.length ≤ s.length → Within 1 x (value x)) :
    Within 1 s (fields s) := by
  rw [fields_eq]
  refine delimited_within (fun x hx => ?_) (Nat.le_refl _)
  exact field_within fun y hy => h y (hy.trans hx)

theorem items_within (h : ∀ x : Text, x.length ≤ s.length → Within 1 x (value x)) :
    Within 1 s (items s) := by
  rw [items_eq]
  refine delimited_within (fun x hx => ?_) (Nat.le_refl _)
  exact item_within fun y hy => h y (hy.trans hx)

/-- A value takes a character at least, and no more than there are.  The induction is on the length
of the text: what a container holds begins behind its opening bracket. -/
theorem value_within (s : Text) : Within 1 s (value s) := by
  induction hlen : s.length using Nat.strongRecOn generalizing s with
  | ind len ih =>
    cases s with
    | nil =>
      rw [value]
      exact Nat.le_refl 0
    | cons c s =>
      have hinside : ∀ m, ∀ x : Text, x.length ≤ (s.drop m).length → Within 1 x (value x) := by
        intro m x hx
        exact ih _ (hx.trans_lt (length_drop_lt hlen m)) x rfl
      have hpeek := peek_within (c :: s)
      rw [value]
      split
      · next f hfault => exact hpeek.fault hfault
      · next m htaken => exact (hpeek.taken htaken).2
      · next found m htaken =>
        have hlt := lt_of_peek htaken rfl
        split
        · have hfields : Within 1 ((c :: s).drop (m + 1)) (fields (s.drop m)) :=
            fields_within (hinside m)
          exact hfields.map.later hlt
        · split
          · have hitems : Within 1 ((c :: s).drop (m + 1)) (items (s.drop m)) :=
              items_within (hinside m)
            exact hitems.map.later hlt
          · split
            · exact (quotedValue_within _).later hlt.le
            · exact (bare_within _).later hlt.le

theorem object_within (s : Text) : Within 1 s (object s) := by
  have hopen := expect_within '\x7b' s
  rw [object]
  split
  · next f hfault => exact hopen.fault hfault
  · next m htaken => exact (fields_within fun x _ => value_within x).map.later (hopen.taken htaken).2

theorem array_within (s : Text) : Within 1 s (array s) := by
  have hopen := expect_within '[' s
  rw [array]
  split
  · next f hfault => exact hopen.fault hfault
  · next m htaken => exact (items_within fun x _ => value_within x).map.later (hopen.taken htaken).2

end TailwindUpgrade.Literal
