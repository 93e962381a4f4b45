/-
TailwindUpgrade/Proofs/Literal/Completeness.lean

Every literal is read as the value that its grammar gives it, and so is the source that the lenient
reading cuts out of it.

`ReadsClosed v u` is what has to be known of a closed value for the entries around it: what it
begins with, that it is balanced, and that it is read as `v` with whatever layout behind it.  For a
string that layout has to end in what may follow a value, since a string is only told from an
expression by what follows it.  Each kind of entry then needs one lemma about the strict reading
and one about the lenient one, and the induction over closed values (`Closed.reads`) joins them.
-/
import TailwindUpgrade.Proofs.Literal.Grammar

namespace TailwindUpgrade.Literal

/-- The text `u` is a closed value `v` to every reader. -/
structure ReadsClosed (v : Value) (u : Text) : Prop where
  head : ∃ c r, u = c :: r ∧ Text.isBlank c = false ∧ c ≠ .char '/' ∧ c ≠ .char '.' ∧
    isCloser c = false
  trimmed : Text.Trimmed u
  balanced : ∀ {cs s : Text}, Balanced cs s → Balanced cs (u ++ s)
  read : ∀ {s : Text} {found : Option CodePoint} {k : Nat}, peek s = .ok (found, k) →
    endsValue found = true → ∃ n, value (u ++ s) = .ok (v, n) ∧ (n = u.length ∨ n = u.length + k)

/-! ### The end of a text -/

theorem drop_of_peek_none {s : Text} {n : Nat} (h : peek s = .ok (none, n)) : s.drop n = [] := by
  obtain ⟨g, r, rfl, rfl, hfound, -⟩ := gap_of_peek h
  rw [List.drop_left]
  exact List.head?_eq_none_iff.1 hfound.symm

/-- A text that holds nothing but layout is at its end. -/
theorem finish_of_peek_none {s : Text} {n : Nat} (h : peek s = .ok (none, n)) :
    finish s = .ok ((), n) := by
  have hrest : peek [] = .ok (none, 0) := peek_solid solid_nil
  rw [finish, h]
  simp [drop_of_peek_none h, hrest, Reading.further_ok]

/-- A text is read as a value if nothing but layout stands behind the value. -/
theorem read_of_value {s : Text} {v : Value} {n k : Nat} (h : value s = .ok (v, n))
    (hrest : peek (s.drop n) = .ok (none, k)) : read s = .ok v := by
  rw [read, h]
  simp only [finish_of_peek_none hrest, Reading.further_ok]

/-- A text that is read is a value and what ends the text. -/
theorem value_of_read {s : Text} {v : Value} (h : read s = .ok v) :
    ∃ n k, value s = .ok (v, n) ∧ finish (s.drop n) = .ok ((), k) := by
  rw [read] at h
  split at h
  · cases h
  · next v' n hvalue =>
    split at h
    · cases h
    · next k hfinish =>
      obtain rfl := Except.ok.inj h
      obtain ⟨k, hfinish, -⟩ := Reading.further_eq_ok hfinish
      exact ⟨n, k, hvalue, hfinish⟩

/-- Layout before a literal does not count. -/
theorem read_gap {g s : Text} {v : Value} (hg : Gap g) (hs : Solid s) (hne : s ≠ [])
    (h : read s = .ok v) : read (g ++ s) = .ok v := by
  obtain ⟨n, k, hvalue, hfinish⟩ := value_of_read h
  rw [read, value_gap hg hs hne, hvalue]
  simp only [Reading.further_ok]
  rw [← List.drop_drop, List.drop_left, hfinish]
  rfl

/-- A closed value is read from a text that ends in layout behind it. -/
theorem ReadsClosed.read_last {v : Value} {u p b : Text} (hu : ReadsClosed v u)
    (hp : Gap (p ++ b)) (hb : Text.AllBlank b) : Literal.read (u ++ p) = .ok v := by
  have hpeek : peek p = .ok (none, p.length) := peek_gap_end hp hb
  obtain ⟨n, hread, hn⟩ := hu.read hpeek rfl
  rcases hn with rfl | rfl
  · exact read_of_value hread (by rw [List.drop_left]; exact hpeek)
  · apply read_of_value (k := 0) hread
    rw [← List.length_append, List.drop_length]
    exact peek_solid solid_nil

/-! ### Values in a container -/

variable {C : Value → Text → Prop} {v : Value} {e x : Text}

theorem Bare.selfContained (h : Bare v e) : SelfContained e := by
  cases h with
  | word he _ _ => exact he
  | quoted _ _ _ _ _ he => exact he

/-- The source of a value is self-contained, and what stands behind it up to the mark is blank. -/
theorem PlacedValue.source (hC : ∀ v u, C v u → ReadsClosed v u) (h : PlacedValue C v e x) :
    SelfContained e ∧ ∃ b, x = e ++ b ∧ Trailing e b := by
  cases h with
  | @closed u g hu hg =>
    have hr := hC v u hu
    obtain ⟨b, hx, hb, htrimmed⟩ := Text.stripEnd_spec (u ++ g)
    obtain ⟨p, hp, -⟩ := Text.prefix_of_trimmed hx hr.trimmed hb
    obtain ⟨c, r, hcr, hblank, hslash, -⟩ := hr.head
    have hbalanced : Balanced [] (u ++ g) := by
      have := hr.balanced (Balanced.gap hg .nil)
      rwa [List.append_nil] at this
    rw [hx] at hbalanced
    have he : SelfContained (Text.stripEnd (u ++ g)) := by
      refine selfContained_of_balanced ?_ ?_ htrimmed hb hbalanced
      · rw [hp, hcr]
        simp
      · rw [hp, hcr]
        exact solid_cons hblank hslash
    exact ⟨he, b, hx, hb, hbalanced⟩
  | @bare e b he hb => exact ⟨he.selfContained, b, rfl, hb⟩

/-- The source of a value, cut out, is read as the value. -/
theorem PlacedValue.read_source (hC : ∀ v u, C v u → ReadsClosed v u) (h : PlacedValue C v e x) :
    Literal.read e = .ok v := by
  cases h with
  | @closed u g hu hg =>
    have hr := hC v u hu
    obtain ⟨b, hx, hb, -⟩ := Text.stripEnd_spec (u ++ g)
    obtain ⟨p, hp, hgp⟩ := Text.prefix_of_trimmed hx hr.trimmed hb
    rw [hp]
    exact hr.read_last (hgp ▸ hg) hb
  | @bare e b he hb =>
    have hexpr : expression (e ++ []) = .ok (e, e.length) := by
      rw [List.append_nil]
      exact he.selfContained
    have hread := value_bare he (by simp) hexpr
    rw [List.append_nil] at hread
    apply read_of_value (k := 0) hread
    rw [List.drop_length]
    exact peek_solid solid_nil

/-- A value is read before any mark that ends its entry. -/
theorem PlacedValue.read_value (hC : ∀ v u, C v u → ReadsClosed v u) (h : PlacedValue C v e x)
    {closer : CodePoint} (hcloser : isCloser closer = true) (comma : Bool) (s : Text) :
    ∃ p g, x = p ++ g ∧ Gap g ∧ value (x ++ endMark closer comma :: s) = .ok (v, p.length) := by
  have hstops := stops_endMark hcloser comma s
  cases h with
  | @closed u g hu hg =>
    have hends : endsValue (some (endMark closer comma)) = true := by
      cases comma with
      | true => rfl
      | false => simp [endMark, endsValue, hcloser]
    obtain ⟨n, hread, hn⟩ := (hC v u hu).read (peek_append hg hstops.solid) hends
    rw [← List.append_assoc] at hread
    rcases hn with rfl | rfl
    · exact ⟨u, g, rfl, hg, hread⟩
    · refine ⟨u ++ g, [], by simp, .nil, ?_⟩
      rwa [List.length_append]
  | @bare e b he hb =>
    have hexpr := expression_append .nil he.selfContained hb hstops
    have hread := value_bare he (apart_of_allBlank hb.1 hstops) hexpr
    refine ⟨e ++ b, [], by simp, .nil, ?_⟩
    rw [List.append_assoc, hread]
    simp

/-- The lenient reading takes the source of a value, up to the mark. -/
theorem PlacedValue.read_expression (hC : ∀ v u, C v u → ReadsClosed v u)
    (h : PlacedValue C v e x) {g s : Text} (hg : Gap g) (hs : Stops s) :
    expression (g ++ (x ++ s)) = .ok (e, g.length + x.length) := by
  obtain ⟨he, b, rfl, hb⟩ := h.source hC
  rw [List.append_assoc]
  exact expression_append hg he hb hs

theorem PlacedValue.balanced (hC : ∀ v u, C v u → ReadsClosed v u) (h : PlacedValue C v e x) :
    Balanced [] x := by
  obtain ⟨-, b, rfl, hb⟩ := h.source hC
  exact hb.2

theorem PlacedValue.ne_nil (hC : ∀ v u, C v u → ReadsClosed v u) (h : PlacedValue C v e x) :
    x ≠ [] := by
  obtain ⟨he, b, rfl, -⟩ := h.source hC
  simp [he.ne_nil]

theorem PlacedValue.solid (hC : ∀ v u, C v u → ReadsClosed v u) (h : PlacedValue C v e x) :
    Solid x := by
  obtain ⟨he, b, rfl, hb⟩ := h.source hC
  exact he.solid.append he.ne_nil (apart_of_blanks hb.1)

/-! ### Entries of an array -/

theorem dots_isPrefixOf_append {e s : Text} (h : dots.isPrefixOf e = false) (hne : e ≠ [])
    (hs : ∀ c ∈ s.head?, c ≠ .char '.') : dots.isPrefixOf (e ++ s) = false := by
  -- with fewer than three characters, a character that is no dot follows
  rcases e with - | ⟨a, - | ⟨b, - | ⟨c, e⟩⟩⟩
  · exact absurd rfl hne
  · cases s with
    | nil => exact h
    | cons d s =>
      have hd := hs d rfl
      simp [dots, Text.ofString, List.isPrefixOf, Ne.symm hd]
  · cases s with
    | nil => exact h
    | cons d s =>
      have hd := hs d rfl
      simp [dots, Text.ofString, List.isPrefixOf, Ne.symm hd]
  · simpa [dots, Text.ofString, List.isPrefixOf] using h

theorem point_of_trailing {b s : Text} (hb : Text.AllBlank b) (hs : Stops s) :
    ∀ c ∈ (b ++ s).head?, c ≠ .char '.' := by
  cases b with
  | nil =>
    intro c hc
    rcases hs c hc with rfl | hcloser
    · decide
    · rintro rfl
      exact absurd hcloser (by decide)
  | cons d b =>
    intro c hc
    obtain rfl : d = c := by simpa using hc
    exact ne_of_isBlank (hb d (by simp)) (by decide)

theorem isPrefixOf_dots_append (s : Text) : dots.isPrefixOf (dots ++ s) = true :=
  List.isPrefixOf_iff_prefix.2 (List.prefix_append _ _)

theorem solid_dots (s : Text) : Solid (dots ++ s) :=
  solid_cons (c := .char '.') (by decide) (by decide)

variable {a : Value × Text}

theorem ItemText.balanced (hC : ∀ v u, C v u → ReadsClosed v u) (h : ItemText C a x) :
    Balanced [] x := by
  cases h with
  | value hx _ => exact hx.balanced hC
  | spread hg _ hb => exact (Balanced.gap hg hb.2).dots

theorem ItemText.solid (hC : ∀ v u, C v u → ReadsClosed v u) (h : ItemText C a x) : Solid x := by
  cases h with
  | value hx _ => exact hx.solid hC
  | spread => exact solid_dots _

theorem ItemText.head (hC : ∀ v u, C v u → ReadsClosed v u) (h : ItemText C a x) :
    ∃ c r, x = c :: r ∧ c ≠ .char ']' := by
  cases h with
  | value hx _ =>
    obtain ⟨he, b, rfl, -⟩ := hx.source hC
    obtain ⟨c, r, rfl, hc⟩ := he.head
    refine ⟨c, r ++ b, rfl, ?_⟩
    rintro rfl
    exact absurd hc (by decide)
  | spread => exact ⟨.char '.', _, rfl, by decide⟩

/-- An entry of an array is read strictly as its value. -/
theorem ItemText.readAs_item (hC : ∀ v u, C v u → ReadsClosed v u) (h : ItemText C a x) :
    ReadAs ']' item a.1 x := by
  refine ⟨h.solid hC, h.head hC, fun comma s => ?_⟩
  have hstops := stops_endMark isCloser_bracket comma s
  cases h with
  | @value v e x hx hdots =>
    obtain ⟨p, g, hp, hg, hread⟩ := hx.read_value hC isCloser_bracket comma s
    refine ⟨p, g, hp, hg, ?_⟩
    obtain ⟨he, b, rfl, hb⟩ := hx.source hC
    have hnot := dots_isPrefixOf_append hdots he.ne_nil (point_of_trailing hb.1 hstops)
    rw [item, List.append_assoc, if_neg (by simp [hnot]), ← List.append_assoc, hread]
  | @spread g e b hg he hb =>
    refine ⟨_, [], (List.append_nil _).symm, .nil, ?_⟩
    have hexpr := expression_append hg he hb hstops
    simp only [List.append_assoc]
    rw [item, if_pos (isPrefixOf_dots_append _), drop_dots, hexpr]
    simp [Reading.map, Reading.further_ok, dots, Text.ofString, Nat.add_comm, Nat.add_left_comm]

/-- An entry of an array is read leniently as its source. -/
theorem ItemText.readAs_rawItem (hC : ∀ v u, C v u → ReadsClosed v u) (h : ItemText C a x) :
    ReadAs ']' rawItem a.2 x := by
  refine ⟨h.solid hC, h.head hC, fun comma s => ⟨x, [], by simp, .nil, ?_⟩⟩
  have hstops := stops_endMark isCloser_bracket comma s
  cases h with
  | @value v e x hx hdots =>
    have hexpr := hx.read_expression hC .nil hstops
    obtain ⟨he, b, rfl, hb⟩ := hx.source hC
    have hnot := dots_isPrefixOf_append hdots he.ne_nil (point_of_trailing hb.1 hstops)
    rw [rawItem, List.append_assoc, if_neg (by simp [hnot]), ← List.append_assoc]
    simpa using hexpr
  | @spread g e b hg he hb =>
    have hexpr := expression_append hg he hb hstops
    simp only [List.append_assoc]
    rw [rawItem, if_pos (isPrefixOf_dots_append _), drop_dots, hexpr]
    simp [Reading.map, Reading.further_ok, dots, Text.ofString, Nat.add_comm, Nat.add_left_comm]

/-! ### Entries of an object -/

/-- Reads one entry of an object as its heading and the source of its value. -/
def sourced (s : Text) : Reading (Head × Text) :=
  match head s with
  | .error f => .error f
  | .ok (.spread source, n) => .ok ((.spread source, source), n)
  | .ok (.shorthand name, n) => .ok ((.shorthand name, name), n)
  | .ok (.keyed name, n) =>
    ((expression (s.drop n)).map fun source => (.keyed name, source)).further n

/-- The lenient reading of an entry only keeps the name that its heading makes. -/
theorem rawField_eq (s : Text) :
    rawField s = (sourced s).map fun (heading, source) => (heading.name, source) := by
  rw [rawField, sourced]
  rcases head s with f | ⟨source | name | name, n⟩
  · rfl
  · rfl
  · rfl
  · rcases hexpr : expression (s.drop n) with f | ⟨e, k⟩ <;> simp only [hexpr] <;> rfl

variable {entry : Entry}

theorem FieldText.balanced (hC : ∀ v u, C v u → ReadsClosed v u) (h : FieldText C entry x) :
    Balanced [] x := by
  cases h with
  | keyed hk hg hg' hx => exact hk.balanced (.gap hg (Balanced.gap hg' (hx.balanced hC)).colon)
  | shorthand hk hg =>
    have := hk.balanced (Balanced.gap hg .nil)
    rwa [List.append_nil] at this
  | spread hg _ hb => exact (Balanced.gap hg hb.2).dots

theorem FieldText.head (h : FieldText C entry x) : ∃ c r, x = c :: r ∧ c ≠ .char '\x7d' := by
  cases h with
  | keyed hk =>
    obtain ⟨c, r, rfl, -, -, -, hc⟩ := hk.head
    exact ⟨c, _, rfl, hc⟩
  | shorthand hk =>
    obtain ⟨c, r, rfl, -, -, -, hc⟩ := hk.head
    exact ⟨c, _, rfl, hc⟩
  | spread => exact ⟨.char '.', _, rfl, by decide⟩

theorem FieldText.solid (h : FieldText C entry x) : Solid x := by
  cases h with
  | keyed hk => exact hk.solid_append _
  | shorthand hk => exact hk.solid_append _
  | spread => exact solid_dots _

theorem endMark_brace (comma : Bool) :
    endMark '\x7d' comma = .char ',' ∨ endMark '\x7d' comma = .char '\x7d' := by
  cases comma with
  | true => exact .inl rfl
  | false => exact .inr rfl

theorem drop_heading (u g s : Text) :
    (u ++ (g ++ .char ':' :: s)).drop (u.length + (g.length + 1)) = s := by
  rw [← List.drop_drop, List.drop_left, ← List.drop_drop, List.drop_left]
  rfl

/-- An entry of an object is read strictly as its field. -/
theorem FieldText.readAs_field (hC : ∀ v u, C v u → ReadsClosed v u) (h : FieldText C entry x) :
    ReadAs '\x7d' field entry.field x := by
  refine ⟨h.solid, h.head, fun comma s => ?_⟩
  have hstops := stops_endMark isCloser_brace comma s
  cases h with
  | @keyed k u g g' e x v hk hg hg' hx =>
    obtain ⟨p, g'', rfl, hp, hread⟩ := hx.read_value hC isCloser_brace comma s
    have hsolid := (hx.solid hC).append (hx.ne_nil hC) hstops.apart
    refine ⟨u ++ (g ++ .char ':' :: (g' ++ p)), g'', by simp, hp, ?_⟩
    -- the heading leaves the gap before the value, and the value what stands behind it
    have hhead := head_keyed hk hg (g' ++ (p ++ g'' ++ endMark '\x7d' comma :: s))
    have htext : u ++ (g ++ .char ':' :: (g' ++ (p ++ g''))) ++ endMark '\x7d' comma :: s =
        u ++ (g ++ .char ':' :: (g' ++ (p ++ g'' ++ endMark '\x7d' comma :: s))) := by simp
    rw [htext, field, hhead]
    simp only [drop_heading, value_gap hg' hsolid (by simp), hread, Reading.further_ok, Reading.map]
    simp only [List.length_append, List.length_cons]
    congr 2
    omega
  | @shorthand k u g hk hg =>
    refine ⟨u ++ g, [], by simp, .nil, ?_⟩
    have hhead := head_shorthand hk hg (endMark_brace comma) s
    rw [List.append_assoc, field, hhead, List.length_append]
    rfl
  | @spread g e b hg he hb =>
    refine ⟨dots ++ (g ++ (e ++ b)), [], by simp, .nil, ?_⟩
    have hhead := head_spread hg he hb hstops
    simp only [List.append_assoc]
    rw [field, hhead]
    simp only [List.length_append]
    rfl

/-- An entry of an object is read leniently as its heading and its source. -/
theorem FieldText.readAs_sourced (hC : ∀ v u, C v u → ReadsClosed v u) (h : FieldText C entry x) :
    ReadAs '\x7d' sourced (entry.head, entry.source) x := by
  refine ⟨h.solid, h.head, fun comma s => ⟨x, [], by simp, .nil, ?_⟩⟩
  have hstops := stops_endMark isCloser_brace comma s
  cases h with
  | @keyed k u g g' e x v hk hg hg' hx =>
    have hexpr := hx.read_expression hC hg' hstops
    have hhead := head_keyed hk hg (g' ++ (x ++ endMark '\x7d' comma :: s))
    have htext : u ++ (g ++ .char ':' :: (g' ++ x)) ++ endMark '\x7d' comma :: s =
        u ++ (g ++ .char ':' :: (g' ++ (x ++ endMark '\x7d' comma :: s))) := by simp
    rw [htext, sourced, hhead]
    simp only [drop_heading, hexpr, Reading.further_ok, Reading.map]
    simp only [List.length_append, List.length_cons]
    congr 2
    omega
  | @shorthand k u g hk hg =>
    have hhead := head_shorthand hk hg (endMark_brace comma) s
    rw [List.append_assoc, sourced, hhead, List.length_append]
  | @spread g e b hg he hb =>
    have hhead := head_spread hg he hb hstops
    simp only [List.append_assoc]
    rw [sourced, hhead]
    simp only [List.length_append]
    rfl

/-- An entry of an object is read leniently as its name and its source. -/
theorem FieldText.readAs_rawField (hC : ∀ v u, C v u → ReadsClosed v u) (h : FieldText C entry x) :
    ReadAs '\x7d' rawField (entry.head.name, entry.source) x := by
  refine ⟨h.solid, h.head, fun comma s => ?_⟩
  obtain ⟨p, g, hp, hg, hread⟩ := (h.readAs_sourced hC).read comma s
  refine ⟨p, g, hp, hg, ?_⟩
  rw [rawField_eq, hread]
  rfl

/-! ### Closed values -/

theorem readsClosed_string {q : CodePoint} {t u : Text} (hq : isQuote q = true)
    (hu : Quoted q t u) : ReadsClosed (.str t) (q :: (u ++ [q])) := by
  have hfirst : Text.isBlank q = false ∧ q ≠ .char '/' ∧ q ≠ .char '.' ∧ isCloser q = false ∧
      q ≠ .char '\x7b' ∧ q ≠ .char '[' := by
    rcases isQuote_cases hq with rfl | rfl | rfl <;> decide
  obtain ⟨hblank, hslash, hpoint, hcloser, hbrace, hbracket⟩ := hfirst
  refine ⟨⟨q, _, rfl, hblank, hslash, hpoint, hcloser⟩,
    Text.trimmed_concat (s := q :: u) hblank, fun hs => ?_, fun {s found k} hpeek hends => ?_⟩
  · rw [List.cons_append, List.append_assoc]
    exact .string hq hu hs
  · have htext : q :: (u ++ [q]) ++ s = q :: (u ++ q :: s) := by simp
    have hdrop : (q :: (u ++ q :: s)).drop (u.length + 2) = s := by
      rw [List.drop_succ_cons, ← List.drop_drop, List.drop_left]
      rfl
    -- the reader has looked past the layout behind the string
    refine ⟨u.length + 2 + k, ?_, .inr (by simp)⟩
    rw [htext, value_of_peek (peek_solid (solid_cons hblank hslash)), if_neg hbrace,
      if_neg hbracket, if_pos hq, List.drop_zero, Reading.further_zero, quotedValue,
      string_append hq hu s]
    simp only [hdrop, hpeek, Reading.further_ok, hends, if_true]

/-- An opening bracket is neither layout nor the beginning of something else. -/
theorem opener_spec {c d : CodePoint} (h : closerOf? c = some d) :
    Text.isBlank c = false ∧ c ≠ .char '/' ∧ c ≠ .char '.' ∧ isCloser c = false := by
  unfold closerOf? at h
  split at h
  · decide
  · decide
  · decide
  · cases h

/-- A container is closed if it is read as its value behind its opening bracket, whatever follows.
-/
theorem readsClosed_container {α : Type} {E : α → Text → Prop} {opener closer : CodePoint}
    {as : List α} {body : Text} (hopener : closerOf? opener = some closer)
    (hcloser : isCloser closer = true) (hbody : Listed closer E as body)
    (hE : ∀ a x, E a x → Balanced [] x)
    (hread : ∀ s, value (opener :: (body ++ s)) = .ok (v, body.length + 1)) :
    ReadsClosed v (opener :: body) := by
  refine ⟨⟨opener, body, rfl, opener_spec hopener⟩, ?_, fun hs => ?_, fun {s found k} _ _ => ?_⟩
  · obtain ⟨r, hr⟩ := hbody.concat
    rw [hr]
    exact Text.trimmed_concat (s := opener :: r) (isCloser_spec hcloser).2.2.2.2.2
  · exact .opener hopener (hbody.balanced hcloser hE hs)
  · exact ⟨body.length + 1, hread s, .inl rfl⟩

/-- An array is read up to its closing bracket, whatever follows. -/
theorem value_array {items : List (Value × Text)} {body : Text}
    (hC : ∀ v u, C v u → ReadsClosed v u) (h : Listed ']' (ItemText C) items body) (s : Text) :
    value (.char '[' :: (body ++ s)) = .ok (.array (items.map Prod.fst), body.length + 1) := by
  have hread := delimited_append rfl (fun a x hx => hx.readAs_item hC) h s
  rw [value_of_peek (peek_solid (solid_bracket _)), if_neg (by decide),
    if_pos rfl, List.drop_succ_cons, List.drop_zero, items_eq, hread, Nat.add_comm body.length]
  rfl

/-- An object is read up to its closing brace, whatever follows. -/
theorem value_object {entries : List Entry} {body : Text} (hC : ∀ v u, C v u → ReadsClosed v u)
    (h : Listed '\x7d' (FieldText C) entries body) (s : Text) :
    value (.char '\x7b' :: (body ++ s)) =
      .ok (.object (Record.ofList (entries.map Entry.field)), body.length + 1) := by
  have hread := delimited_append rfl (fun a x hx => hx.readAs_field hC) h s
  rw [value_of_peek (peek_solid (solid_brace _)), if_pos rfl,
    List.drop_succ_cons, List.drop_zero, fields_eq, hread, Nat.add_comm body.length]
  rfl

/-- Closed values are read, each as its value. -/
theorem Closed.reads {u : Text} (h : Closed v u) : ReadsClosed v u := by
  induction h with
  | string hq hu => exact readsClosed_string hq hu
  | array _ hbody ih =>
    exact readsClosed_container rfl rfl hbody (fun a x hx => hx.balanced ih) (value_array ih hbody)
  | object _ hbody ih =>
    exact readsClosed_container rfl rfl hbody (fun a x hx => hx.balanced ih) (value_object ih hbody)

/-- Where a closed value stands in a container, its source does not begin with dots. -/
theorem Closed.placed {u g : Text} (h : Closed v u) (hg : Gap g) :
    PlacedValue Closed v (Text.stripEnd (u ++ g)) (u ++ g) ∧
      dots.isPrefixOf (Text.stripEnd (u ++ g)) = false := by
  refine ⟨.closed h hg, ?_⟩
  obtain ⟨b, hx, hb, -⟩ := Text.stripEnd_spec (u ++ g)
  obtain ⟨p, hp, -⟩ := Text.prefix_of_trimmed hx h.reads.trimmed hb
  -- trimming leaves the first character where it is
  obtain ⟨c, r, hcr, -, -, hpoint, -⟩ := h.reads.head
  rw [hp, hcr, List.cons_append]
  exact dots_isPrefixOf hpoint _

/-- A container is read by itself, whatever follows it; what follows a string may make an expression
of it. -/
theorem Closed.value_append {u : Text} (h : Closed v u) (hv : ∀ t, v ≠ .str t) (s : Text) :
    value (u ++ s) = .ok (v, u.length) := by
  cases h with
  | @string q t u => exact absurd rfl (hv t)
  | array hC hbody => exact value_array (fun v u hu => (hC v u hu).reads) hbody s
  | object hC hbody => exact value_object (fun v u hu => (hC v u hu).reads) hbody s

end TailwindUpgrade.Literal
