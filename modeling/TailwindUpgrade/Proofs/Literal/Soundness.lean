/-
TailwindUpgrade/Proofs/Literal/Soundness.lean

Nothing but literals is read.  The strict readers call each other, and each call of `value` from an
entry is on a shorter text, so one induction on the length of the text carries them all:
`ValueSound s` is the claim for `value` on the text `s`, the lemmas about entries and lists take it
for all shorter texts, and `valueSound` closes the circle.
-/
import TailwindUpgrade.Proofs.Literal.Completeness

namespace TailwindUpgrade.Literal

/-- The value `v` stands at the front of a text and takes `n` characters of it: a closed value with
the layout that was read behind it, which goes on to the end of the value if it is a string; or a
bare one with the blanks behind it. -/
inductive Front (v : Value) : Text → Nat → Prop
  | closed {u p r : Text} :
      Closed v u → (r ≠ [] → Gap p) → Gap (p ++ [.char '\n']) → (∀ t, v = .str t → Stops r) →
      Front v (u ++ (p ++ r)) (u.length + p.length)
  | bare {e b r : Text} :
      Bare v e → Text.AllBlank b → Stops r → (r ≠ [] → Trailing e b) →
      Front v (e ++ (b ++ r)) (e ++ b).length

/-- What is read as a value of `s` is one, with layout before it. -/
def ValueSound (s : Text) : Prop :=
  ∀ v n, value s = .ok (v, n) →
    ∃ g s' k, s = g ++ s' ∧ n = g.length + k ∧ Gap g ∧ Front v s' k

/-! ### What stands before a mark -/

theorem Gap.eq_nil_of_solid {g s : Text} (hg : Gap g) (hs : Solid (g ++ s)) : g = [] := by
  rw [Solid, layout_append hg] at hs
  obtain ⟨k, -, hk⟩ := Reading.further_eq_ok hs
  exact List.eq_nil_of_length_eq_zero (by omega)

/-- The mark behind an entry stands at once where no layout does. -/
theorem mark_of_separator {s : Text} {closer : CodePoint} {comma : Bool} {m : Nat} (hs : Solid s)
    (h : separator closer s = .ok (comma, m)) : m = 0 ∧ ∃ r, s = endMark closer comma :: r := by
  obtain ⟨g, r, rfl, rfl, hg⟩ := gap_of_separator h
  obtain rfl := hg.eq_nil_of_solid hs
  exact ⟨rfl, r, rfl⟩

/-- What is read as a value before a mark is a value in a container. -/
theorem placed_of_value {s : Text} {v : Value} {k m : Nat} {closer : CodePoint} {comma : Bool}
    (hs : ValueSound s) (h : value s = .ok (v, k))
    (hmark : separator closer (s.drop k) = .ok (comma, m)) :
    ∃ g e x r, s = g ++ (x ++ endMark closer comma :: r) ∧ Gap g ∧ k + m = g.length + x.length ∧
      PlacedValue Closed v e x := by
  obtain ⟨g, s', k, rfl, rfl, hg, hfront⟩ := hs v k h
  cases hfront with
  | @closed u p r hu hp =>
    -- the gap that was read with a closed value goes on up to the mark
    have hdrop : (g ++ (u ++ (p ++ r))).drop (g.length + (u.length + p.length)) = r := by
      rw [← List.drop_drop, List.drop_left, ← List.drop_drop, List.drop_left, List.drop_left]
    rw [hdrop] at hmark
    obtain ⟨g', r, rfl, rfl, hg'⟩ := gap_of_separator hmark
    refine ⟨g, _, u ++ (p ++ g'), r, by simp, hg, ?_, .closed hu ((hp (by simp)).append hg')⟩
    simp only [List.length_append]
    omega
  | @bare e b r he _ hr hb =>
    -- a bare value goes on up to the mark by itself
    have hdrop : (g ++ (e ++ (b ++ r))).drop (g.length + (e ++ b).length) = r := by
      rw [← List.drop_drop, List.drop_left, ← List.append_assoc, List.drop_left]
    rw [hdrop] at hmark
    obtain ⟨rfl, r, rfl⟩ := mark_of_separator hr.solid hmark
    exact ⟨g, e, e ++ b, r, by simp, hg, by simp, .bare he (hb (by simp))⟩

/-! ### Entries -/

theorem placed_of_expression {s e : Text} {k m : Nat} {closer : CodePoint} {comma : Bool}
    (h : expression s = .ok (e, k)) (hmark : separator closer (s.drop k) = .ok (comma, m)) :
    ∃ g b r, s = g ++ (e ++ (b ++ endMark closer comma :: r)) ∧
      k + m = g.length + (e ++ b).length ∧ Gap g ∧ SelfContained e ∧ Trailing e b := by
  obtain ⟨g, b, r, rfl, rfl, hg, he, -, hr, hb⟩ := selfContained_of_expression h
  have hdrop : (g ++ (e ++ (b ++ r))).drop (g.length + (e ++ b).length) = r := by
    rw [← List.drop_drop, List.drop_left, ← List.append_assoc, List.drop_left]
  rw [hdrop] at hmark
  obtain ⟨rfl, r, rfl⟩ := mark_of_separator hr.solid hmark
  exact ⟨g, b, r, rfl, by simp, hg, he, hb (by simp)⟩

/-- What is read as an entry of an array before a mark is one. -/
theorem itemText_of_item {x : Text} {v : Value} {k m : Nat} {comma : Bool} (hx : ValueSound x)
    (hsolid : Solid x) (h : item x = .ok (v, k))
    (hmark : separator ']' (x.drop k) = .ok (comma, m)) :
    ∃ a y r, x = y ++ endMark ']' comma :: r ∧ k + m = y.length ∧ a.1 = v ∧ ItemText Closed a y := by
  rw [item] at h
  split at h
  · next hdots =>
    obtain ⟨t, rfl⟩ := List.isPrefixOf_iff_prefix.1 hdots
    rw [drop_dots] at h
    obtain ⟨k, hmap, rfl⟩ := Reading.further_eq_ok h
    obtain ⟨e, hexpr, rfl⟩ := Reading.map_eq_ok hmap
    rw [← List.drop_drop, drop_dots] at hmark
    obtain ⟨g, b, r, rfl, hlength, hg, he, hb⟩ := placed_of_expression hexpr hmark
    refine ⟨(.expr (dots ++ e), dots ++ e), dots ++ (g ++ (e ++ b)), r, by simp, ?_, rfl,
      .spread hg he hb⟩
    simp only [List.length_append] at hlength ⊢
    have : dots.length = 3 := rfl
    omega
  · next hdots =>
    obtain ⟨g, e, y, r, rfl, hg, hlength, hy⟩ := placed_of_value hx h hmark
    obtain rfl := hg.eq_nil_of_solid hsolid
    refine ⟨(v, e), y, r, rfl, by simpa using hlength, rfl, .value hy ?_⟩
    obtain ⟨-, b, rfl, -⟩ := hy.source fun v u hu => hu.reads
    by_contra he
    apply hdots
    rw [List.isPrefixOf_iff_prefix]
    have hprefix : dots <+: e := List.isPrefixOf_iff_prefix.1 (by simpa using he)
    exact hprefix.trans ⟨b ++ endMark ']' comma :: r, by simp⟩

/-- What is read as an entry of an object before a mark is one. -/
theorem fieldText_of_field {x : Text} {f : Text × Value} {k m : Nat} {comma : Bool}
    (hx : ∀ s, s.length ≤ x.length → ValueSound s) (hsolid : Solid x) (h : field x = .ok (f, k))
    (hmark : separator '\x7d' (x.drop k) = .ok (comma, m)) :
    ∃ entry y r, x = y ++ endMark '\x7d' comma :: r ∧ k + m = y.length ∧ entry.field = f ∧
      FieldText Closed entry y := by
  rcases hhead : head x with f' | ⟨heading, n⟩
  · rw [field, hhead] at h
    cases h
  rw [field, hhead] at h
  rcases head_cases hsolid hhead with ⟨name, u, g, r, rfl, rfl, rfl, hk, hg⟩ |
    ⟨name, u, g, c, r, rfl, hc, rfl, rfl, hk, hg⟩ | ⟨source, g, b, r, rfl, rfl, rfl, hg, he, -, hr, hb⟩
  · -- a key and a colon: the value is on a shorter text
    simp only [drop_heading] at h
    obtain ⟨k, hmap, rfl⟩ := Reading.further_eq_ok h
    obtain ⟨v, hvalue, rfl⟩ := Reading.map_eq_ok hmap
    rw [← List.drop_drop, drop_heading] at hmark
    have hr : ValueSound r := hx r (by simp; omega)
    obtain ⟨g', e, y, r, rfl, hg', hlength, hy⟩ := placed_of_value hr hvalue hmark
    refine ⟨⟨.keyed name, v, e⟩, u ++ (g ++ .char ':' :: (g' ++ y)), r, by simp, ?_, rfl,
      .keyed hk hg hg' hy⟩
    simp only [List.length_append, List.length_cons]
    omega
  · -- a key alone: the mark that ends it is the one that was read
    obtain ⟨rfl, rfl⟩ := Prod.mk.inj (Except.ok.inj h)
    rw [← List.drop_drop, List.drop_left, List.drop_left] at hmark
    obtain ⟨rfl, r', hr'⟩ := mark_of_separator (solid_endField hc r) hmark
    rw [hr']
    exact ⟨⟨.shorthand name, .expr name, name⟩, u ++ g, r', by simp, by simp, rfl,
      .shorthand hk hg⟩
  · -- a spread: its expression stops before the mark
    obtain ⟨rfl, rfl⟩ := Prod.mk.inj (Except.ok.inj h)
    have hdrop : (dots ++ (g ++ (source ++ (b ++ r)))).drop (3 + (g.length + (source ++ b).length)) =
        r := by
      rw [← List.drop_drop, drop_dots, ← List.drop_drop, List.drop_left, ← List.append_assoc,
        List.drop_left]
    rw [hdrop] at hmark
    obtain ⟨rfl, r, rfl⟩ := mark_of_separator hr.solid hmark
    refine ⟨⟨.spread source, .expr source, source⟩, dots ++ (g ++ (source ++ b)), r, by simp, ?_,
      rfl, .spread hg he (hb (by simp))⟩
    simp only [List.length_append]
    rfl

/-! ### Containers -/

/-- What is read as the entries of an array is a list of entries. -/
theorem listed_of_items {s : Text} {vs : List Value} {n : Nat}
    (hs : ∀ s', s'.length ≤ s.length → ValueSound s') (h : items s = .ok (vs, n)) :
    ∃ as body r, vs = as.map Prod.fst ∧ s = body ++ r ∧ n = body.length ∧
      Listed ']' (ItemText Closed) as body := by
  rw [items_eq] at h
  refine listed_of_delimited ?_ (le_refl s.length) h
  intro x v k comma m hlen hsolid _ hread hmark
  exact itemText_of_item (hs x hlen) hsolid hread hmark

/-- What is read as the entries of an object is a list of entries. -/
theorem listed_of_fields {s : Text} {fs : List (Text × Value)} {n : Nat}
    (hs : ∀ s', s'.length ≤ s.length → ValueSound s') (h : fields s = .ok (fs, n)) :
    ∃ entries body r, fs = entries.map Entry.field ∧ s = body ++ r ∧ n = body.length ∧
      Listed '\x7d' (FieldText Closed) entries body := by
  rw [fields_eq] at h
  refine listed_of_delimited ?_ (le_refl s.length) h
  intro x f k comma m hlen hsolid _ hread hmark
  exact fieldText_of_field (fun s' hs' => hs s' (hs'.trans hlen)) hsolid hread hmark

/-! ### Values -/

/-- An expression goes on past what cannot end it. -/
theorem expressionEnd_pos {c : CodePoint} {s : Text} {m : Nat}
    (hc : endsValue (some c) = false) (h : expressionEnd [] (c :: s) = .ok ((), m)) : 0 < m := by
  rcases step_of_expressionEnd h with ⟨-, hstops, -⟩ | ⟨cs, s', k, hstep, -, hlength⟩
  · rcases hstops c rfl with rfl | hcloser
    · exact absurd hc (by decide)
    · simp [endsValue, hcloser] at hc
  · have := hstep.length_lt
    omega

/-- An expression that begins with a string, behind which something stands that ends no value. -/
theorem bare_of_string {q c : CodePoint} {t u g r e b r' : Text} (hq : isQuote q = true)
    (hu : Quoted q t u) (hg : Gap g) (hc : Solid (c :: r)) (hends : endsValue (some c) = false)
    (htext : q :: (u ++ q :: (g ++ c :: r)) = e ++ (b ++ r')) (he : SelfContained e)
    (hb : Text.AllBlank b)
    (hend : expressionEnd [] (q :: (u ++ q :: (g ++ c :: r))) = .ok ((), (e ++ b).length)) :
    Bare (.expr e) e := by
  -- the run takes the string, the layout, and at least one character more
  rw [expressionEnd_string hq hu, expressionEnd_gap hg, Reading.further_further] at hend
  obtain ⟨m, hrest, hm⟩ := Reading.further_eq_ok hend
  have hpos := expressionEnd_pos hends hrest
  obtain ⟨w, hw⟩ : q :: (u ++ q :: (g ++ [c])) <+: e ++ b := by
    have hsource : e ++ b <+: e ++ (b ++ r') := ⟨r', List.append_assoc e b r'⟩
    refine List.prefix_of_prefix_length_le ⟨r, ?_⟩ hsource ?_
    · rw [← htext]
      simp
    · rw [hm]
      simp only [List.length_cons, List.length_append, List.length_nil]
      omega
  -- and that character is no blank, so it belongs to the expression
  have htrimmed : Text.Trimmed (q :: (u ++ q :: (g ++ [c]))) := by
    have := Text.trimmed_concat (s := q :: (u ++ q :: g)) (solid_cons_iff.1 hc).1
    simpa using this
  obtain ⟨p, hp, -⟩ := Text.prefix_of_trimmed hw htrimmed hb
  have hep : e = q :: (u ++ q :: (g ++ c :: p)) := by simpa using hp
  have hrp : r = p ++ (b ++ r') := by
    rw [hep] at htext
    simpa using htext
  rw [hrp, ← List.cons_append] at hc
  rw [hep] at he ⊢
  exact .quoted hq hu hg hc.of_append hends he

theorem stops_of_endsValue {s : Text} (h : endsValue s.head? = true) : Stops s := by
  intro c hc
  rw [Option.mem_def.1 hc] at h
  simpa [endsValue] using h

/-- What begins with a string is a string before the end of a value, and else an expression that
goes on behind the string. -/
theorem quotedValue_sound {s : Text} {v : Value} {n : Nat} (hs : Solid s)
    (hquote : s.head?.any isQuote = true) (h : quotedValue s = .ok (v, n)) : Front v s n := by
  rw [quotedValue] at h
  split at h
  · cases h
  · next t m hstring =>
    obtain ⟨q, u, s, rfl, rfl, hu⟩ := quoted_of_string hstring
    have hq : isQuote q = true := by simpa using hquote
    have hdrop : (q :: (u ++ q :: s)).drop (u.length + 2) = s := by
      rw [List.drop_succ_cons, ← List.drop_drop, List.drop_left]
      rfl
    rw [hdrop] at h
    split at h
    · cases h
    · next found k hpeek =>
      obtain ⟨k, hahead, rfl⟩ := Reading.further_eq_ok hpeek
      obtain ⟨g, r, rfl, rfl, rfl, hr, hg, hend⟩ := gap_of_peek hahead
      split at h
      · next hends =>
        obtain ⟨rfl, rfl⟩ := Prod.mk.inj (Except.ok.inj h)
        have hfront := Front.closed (.string hq hu) hg hend fun _ _ => stops_of_endsValue hends
        simpa using hfront
      · next hends =>
        -- something follows that ends no value, so the string was only the beginning
        cases r with
        | nil => exact absurd rfl hends
        | cons c r =>
          have hends : endsValue (some c) = false := by simpa using hends
          rcases hexpr : expression (q :: (u ++ q :: (g ++ c :: r))) with f | ⟨e, n'⟩
          · rw [hexpr] at h
            cases h
          · rw [hexpr] at h
            obtain ⟨rfl, rfl⟩ := Prod.mk.inj (Except.ok.inj h)
            have hend := expressionEnd_of_expression hs hexpr
            obtain ⟨g', b, r', htext, rfl, hg', he, hb, hr', htrailing⟩ :=
              selfContained_of_expression hexpr
            obtain rfl := hg'.eq_nil_of_solid (htext ▸ hs)
            rw [List.nil_append] at htext
            rw [List.length_nil, Nat.zero_add] at hend ⊢
            have hbare := bare_of_string hq hu (hg (by simp)) hr hends htext he hb hend
            rw [htext]
            exact .bare hbare hb hr' htrailing

/-- What is read as a value begins with a character behind the layout. -/
theorem peek_of_value {s : Text} {v : Value} {n : Nat} (h : value s = .ok (v, n)) :
    ∃ g c s', s = g ++ c :: s' ∧ Gap g ∧ Solid (c :: s') ∧ peek s = .ok (some c, g.length) := by
  cases s with
  | nil => simp [value] at h
  | cons d s =>
    rw [value] at h
    rcases hpeek : peek (d :: s) with f | ⟨found, k⟩
    · rw [hpeek] at h
      cases h
    obtain ⟨g, s', hs, rfl, rfl, hs', hg, -⟩ := gap_of_peek hpeek
    cases s' with
    | nil =>
      rw [hpeek] at h
      cases h
    | cons c s' => exact ⟨g, c, s', hs, hg (by simp), hs', rfl⟩

/-- An expression is read as its value. -/
theorem bare_eq_ok {s : Text} {v : Value} {n : Nat} (h : bare s = .ok (v, n)) :
    ∃ e, expression s = .ok (e, n) ∧ expressionValue e = .ok v := by
  rw [bare] at h
  split at h
  · cases h
  · next e m hexpr =>
    split at h
    · next w hvalue =>
      obtain ⟨rfl, rfl⟩ := Prod.mk.inj (Except.ok.inj h)
      exact ⟨e, hexpr, hvalue⟩
    · cases h

/-- Nothing but values is read as a value. -/
theorem valueSound (s : Text) : ValueSound s := by
  -- the entries of a container are read on shorter texts
  induction hlen : s.length using Nat.strongRecOn generalizing s with
  | ind len ih =>
    intro v n h
    obtain ⟨g, c, s', rfl, hg, hs', hpeek⟩ := peek_of_value h
    have hempty : Gap ([] ++ [.char '\n']) := .blank (by decide) .nil
    have hshorter : ∀ t : Text, t.length ≤ s'.length → ValueSound t := by
      intro t ht
      refine ih t.length ?_ t rfl
      rw [← hlen, List.length_append, List.length_cons]
      omega
    rw [value_of_peek hpeek, ← List.drop_drop, List.drop_left, List.drop_succ_cons,
      List.drop_zero] at h
    split_ifs at h with hbrace hbracket hquote
    · subst hbrace
      obtain ⟨k, hmap, rfl⟩ := Reading.further_eq_ok h
      obtain ⟨fs, hfields, rfl⟩ := Reading.map_eq_ok hmap
      obtain ⟨entries, body, r, rfl, rfl, rfl, hbody⟩ := listed_of_fields hshorter hfields
      refine ⟨g, _, _, rfl, ?_, hg, .closed (u := .char '\x7b' :: body) (p := []) (r := r)
        (.object (fun _ _ hu => hu) hbody) (fun _ => .nil) hempty nofun⟩
      simp only [List.length_cons, List.length_nil]
      omega
    · subst hbracket
      obtain ⟨k, hmap, rfl⟩ := Reading.further_eq_ok h
      obtain ⟨vs, hitems, rfl⟩ := Reading.map_eq_ok hmap
      obtain ⟨as, body, r, rfl, rfl, rfl, hbody⟩ := listed_of_items hshorter hitems
      refine ⟨g, _, _, rfl, ?_, hg, .closed (u := .char '[' :: body) (p := []) (r := r)
        (.array (fun _ _ hu => hu) hbody) (fun _ => .nil) hempty nofun⟩
      simp only [List.length_cons, List.length_nil]
      omega
    · obtain ⟨k, hread, rfl⟩ := Reading.further_eq_ok h
      exact ⟨g, c :: s', k, rfl, rfl, hg, quotedValue_sound hs' (by simpa using hquote) hread⟩
    · -- neither a bracket nor a quote: an expression
      obtain ⟨k, hread, rfl⟩ := Reading.further_eq_ok h
      obtain ⟨e, hexpr, hvalue⟩ := bare_eq_ok hread
      obtain ⟨g', b, r, htext, rfl, hg', he, hb, hr, htrailing⟩ :=
        selfContained_of_expression hexpr
      obtain rfl := hg'.eq_nil_of_solid (htext ▸ hs')
      rw [List.nil_append] at htext
      refine ⟨g, c :: s', (e ++ b).length, rfl, by simp, hg, ?_⟩
      rw [htext]
      refine .bare (.word he ?_ hvalue) hb hr htrailing
      intro d hd
      obtain ⟨c', e', rfl, -⟩ := he.head
      obtain rfl : c' = d := by simpa using hd
      obtain rfl : c = c' := (List.cons.inj htext).1
      exact ⟨by simpa using hquote, hbrace, hbracket⟩

end TailwindUpgrade.Literal
