/-
TailwindUpgrade/Proofs/Literal/SelfContained.lean

Expressions that can be cut out.  A text is self-contained if it is read as one expression, from
its first to its last character.  Where an expression stands is then of no account: with layout
before it, blanks behind it, and a comma, a closing bracket or nothing after those, it is read as
itself (`expression_append`).  And what the reader of expressions gives back is always
self-contained (`selfContained_of_expression`).

The blanks behind an expression may hold the line feed of a line comment at its end, so they are
its `Trailing` only together with it.
-/
import TailwindUpgrade.Proofs.Literal.Balance

namespace TailwindUpgrade.Literal

/-- A text that is one expression, from its first to its last character. -/
def SelfContained (e : Text) : Prop := expression e = .ok (e, e.length)

instance (e : Text) : Decidable (SelfContained e) :=
  inferInstanceAs (Decidable (expression e = .ok (e, e.length)))

/-- Blanks that may stand behind the expression `e` where another text goes on. -/
def Trailing (e b : Text) : Prop := Text.AllBlank b ∧ Balanced [] (e ++ b)

/-! ### The expression by itself -/

theorem strip_solid {e : Text} (he : Solid e) : Text.strip e = Text.stripEnd e := by
  cases e with
  | nil => rfl
  | cons c e => rw [Text.strip, Text.stripStart_of_not_isBlank (solid_cons_iff.1 he).1]

theorem selfContained_of_expressionEnd {e : Text} (hne : e ≠ []) (hsolid : Solid e)
    (htrimmed : Text.Trimmed e) (hend : expressionEnd [] e = .ok ((), e.length)) :
    SelfContained e := by
  have hstrip : Text.strip e = e := by rw [strip_solid hsolid, Text.stripEnd_eq_self htrimmed]
  rw [SelfContained, expression, hsolid]
  simp only [List.drop_zero, hend, List.take_length, hstrip, if_neg hne, Nat.zero_add]

theorem length_strip_le (s : Text) : (Text.strip s).length ≤ s.length := by
  rw [Text.strip, Text.stripEnd, List.length_reverse]
  apply (List.dropWhile_suffix _).length_le.trans
  rw [List.length_reverse]
  exact (List.dropWhile_suffix _).length_le

/-- A self-contained text is not empty, begins and ends with no blank, begins with no comment, and
is balanced once a line comment at its end has its line feed. -/
theorem SelfContained.spec {e : Text} (h : SelfContained e) :
    e ≠ [] ∧ Solid e ∧ Text.Trimmed e ∧ Balanced [] (e ++ [.char '\n']) := by
  rw [SelfContained, expression] at h
  split at h
  · cases h
  · next n hlayout =>
    simp only at h
    split at h
    · cases h
    · next k hend =>
      split at h
      · cases h
      · next hne =>
        simp only [Except.ok.injEq, Prod.mk.injEq] at h
        obtain ⟨hsource, hlength⟩ := h
        obtain ⟨x, r, hx, rfl, -, -, hbalanced⟩ := balanced_of_expressionEnd hend
        -- the source is as long as the text, so nothing was cut off before or behind it
        have hle : e.length ≤ x.length := by
          have := length_strip_le ((e.drop n).take x.length)
          rw [hsource] at this
          exact this.trans (List.length_take_le _ _)
        obtain rfl : n = 0 := by omega
        rw [List.drop_zero] at hx hsource
        obtain rfl : r = [] := by
          have := congrArg List.length hx
          rw [List.length_append] at this
          exact List.eq_nil_of_length_eq_zero (by omega)
        rw [List.append_nil] at hx
        subst hx
        rw [List.take_length, strip_solid hlayout] at hsource
        refine ⟨?_, hlayout, ?_, hbalanced⟩
        · rintro rfl
          exact hne rfl
        · obtain ⟨b, -, -, htrimmed⟩ := Text.stripEnd_spec e
          rwa [hsource] at htrimmed

theorem SelfContained.ne_nil {e : Text} (h : SelfContained e) : e ≠ [] := h.spec.1

theorem SelfContained.solid {e : Text} (h : SelfContained e) : Solid e := h.spec.2.1

theorem SelfContained.trimmed {e : Text} (h : SelfContained e) : Text.Trimmed e := h.spec.2.2.1

/-- A line feed may always stand behind an expression. -/
theorem SelfContained.trailing_lineFeed {e : Text} (h : SelfContained e) :
    Trailing e [.char '\n'] := ⟨Text.allBlank_lineFeed, h.spec.2.2.2⟩

/-- A balanced text is self-contained once the blanks behind it are cut off. -/
theorem selfContained_of_balanced {e b : Text} (hne : e ≠ []) (hsolid : Solid e)
    (htrimmed : Text.Trimmed e) (hb : Text.AllBlank b) (h : Balanced [] (e ++ b)) :
    SelfContained e :=
  selfContained_of_expressionEnd hne hsolid htrimmed (expressionEnd_of_balanced_append_blanks h hb)

/-- No expression begins with a closing bracket. -/
theorem SelfContained.head {e : Text} (h : SelfContained e) :
    ∃ c r, e = c :: r ∧ isCloser c = false := by
  obtain ⟨hne, -, -, hbalanced⟩ := h.spec
  cases e with
  | nil => exact absurd rfl hne
  | cons c e =>
    refine ⟨c, e, rfl, ?_⟩
    by_contra hcloser
    have hcloser : isCloser c = true := by simpa using hcloser
    -- nothing is due at the front of the text
    have hend := expressionEnd_append hbalanced stops_nil
    rw [List.append_nil, expressionEnd_stops (fun d hd => .inr ?_)] at hend
    · simp at hend
    · obtain rfl : c = d := by simpa using hd
      exact hcloser

/-! ### The expression among other text -/

theorem apart_of_allBlank {b s : Text} (hb : Text.AllBlank b) (hs : Stops s) :
    ∀ c ∈ (b ++ s).head?, c ≠ .char '/' ∧ c ≠ .char '*' := by
  cases b with
  | nil => exact hs.apart
  | cons d b =>
    intro c hc
    obtain rfl : d = c := by simpa using hc
    have hblank := hb d (by simp)
    exact ⟨ne_of_isBlank hblank (by decide), ne_of_isBlank hblank (by decide)⟩

theorem apart_of_blanks {b : Text} (hb : Text.AllBlank b) :
    ∀ c ∈ b.head?, c ≠ .char '/' ∧ c ≠ .char '*' := by
  have hapart := apart_of_allBlank hb stops_nil
  rwa [List.append_nil] at hapart

/-- An expression is read as itself between the layout before it and what stops it. -/
theorem expression_append {g e b s : Text} (hg : Gap g) (he : SelfContained e)
    (hb : Trailing e b) (hs : Stops s) :
    expression (g ++ (e ++ (b ++ s))) = .ok (e, g.length + (e ++ b).length) := by
  obtain ⟨hblank, hbalanced⟩ := hb
  have hsolid : Solid (e ++ (b ++ s)) :=
    he.solid.append he.ne_nil (apart_of_allBlank hblank hs)
  have hstrip : Text.strip (e ++ b) = e := by
    have hebsolid : Solid (e ++ b) := he.solid.append he.ne_nil (apart_of_blanks hblank)
    rw [strip_solid hebsolid, Text.stripEnd_append_blanks he.trimmed hblank]
  have hend : expressionEnd [] (e ++ (b ++ s)) = .ok ((), (e ++ b).length) := by
    rw [← List.append_assoc]
    exact expressionEnd_append hbalanced hs
  have htake : (e ++ (b ++ s)).take (e ++ b).length = e ++ b := by
    rw [← List.append_assoc, List.take_left]
  rw [expression, layout_append hg, hsolid]
  simp only [Reading.further_ok, Nat.add_zero, List.drop_left, hend, htake, hstrip,
    if_neg he.ne_nil]

/-- What is read as an expression is self-contained, with layout before it, and blanks behind it up
to what stops it. -/
theorem selfContained_of_expression {s e : Text} {n : Nat} (h : expression s = .ok (e, n)) :
    ∃ g b r, s = g ++ (e ++ (b ++ r)) ∧ n = g.length + (e ++ b).length ∧ Gap g ∧
      SelfContained e ∧ Text.AllBlank b ∧ Stops r ∧ (r ≠ [] → Trailing e b) := by
  rw [expression] at h
  split at h
  · cases h
  · next m hlayout =>
    simp only at h
    split at h
    · cases h
    · next k hend =>
      split at h
      · cases h
      · next hne =>
        simp only [Except.ok.injEq, Prod.mk.injEq] at h
        obtain ⟨hsource, rfl⟩ := h
        -- layout, the run up to what stops it, and the blanks at the end of the run
        obtain ⟨g, s', rfl, rfl, hsolid, hg, -⟩ := gap_of_layout hlayout
        rw [List.drop_left] at hend hsource hne
        obtain ⟨x, r, rfl, rfl, hr, hx, hbalanced⟩ := balanced_of_expressionEnd hend
        rw [List.take_left] at hsource hne
        have hxsolid : Solid x := hsolid.of_append
        rw [strip_solid hxsolid] at hsource hne
        obtain ⟨b, hxb, hb, htrimmed⟩ := Text.stripEnd_spec x
        rw [hsource] at hxb htrimmed hne
        subst hxb
        rw [List.append_assoc] at hbalanced
        have he : SelfContained e :=
          selfContained_of_balanced hne hxsolid.of_append htrimmed
            (Text.allBlank_append.2 ⟨hb, Text.allBlank_lineFeed⟩) hbalanced
        refine ⟨g, b, r, by rw [List.append_assoc], rfl, hg ?_, he, hb, hr, fun hne' => ⟨hb, hx hne'⟩⟩
        intro hnil
        exact hne (List.append_eq_nil_iff.1 (List.append_eq_nil_iff.1 hnil).1).1

/-- Where no layout comes first, an expression is all that is run through. -/
theorem expressionEnd_of_expression {s e : Text} {n : Nat} (hs : Solid s)
    (h : expression s = .ok (e, n)) : expressionEnd [] s = .ok ((), n) := by
  rw [expression, hs] at h
  simp only [List.drop_zero] at h
  split at h
  · cases h
  · next k hend =>
    split at h
    · cases h
    · obtain ⟨-, rfl⟩ := Prod.mk.inj (Except.ok.inj h)
      rw [Nat.zero_add]
      exact hend

end TailwindUpgrade.Literal
