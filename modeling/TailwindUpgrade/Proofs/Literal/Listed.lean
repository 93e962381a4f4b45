/-
TailwindUpgrade/Proofs/Literal/Listed.lean

Containers, whatever their entries are.  `Listed closer E as s` says that `s` holds the entries
`as`, each a text of the language `E`, from after the opening bracket of a container to its closing
one: layout before each entry, a comma behind each but perhaps the last.

The strict readings of objects and of arrays are one reading, `delimited`, for two kinds of entries
(`fields_eq`, `items_eq`), and where it succeeds the lenient one gives the same entries
(`rawEntries_of_delimited`).  So it is enough to say once that a list of entries is read if every
entry is (`delimited_append`), and that what is read is a list of entries (`listed_of_delimited`).
-/
import Mathlib.Data.List.Forall2
import TailwindUpgrade.Literal.Read
import TailwindUpgrade.Proofs.Literal.Heading

namespace TailwindUpgrade.Literal

variable {α β : Type} {closer : CodePoint} {entry : Text → Reading α}

/-- The entries of a container, from after its opening bracket to its closing one. -/
inductive Listed (closer : CodePoint) (E : α → Text → Prop) : List α → Text → Prop
  | none {g : Text} : Gap g → Listed closer E [] (g ++ [closer])
  | last {g x : Text} {a : α} : Gap g → E a x → Listed closer E [a] (g ++ (x ++ [closer]))
  | more {g x s : Text} {a : α} {as : List α} :
      Gap g → E a x → Listed closer E as s → Listed closer E (a :: as) (g ++ (x ++ .char ',' :: s))

theorem Listed.mono {E E' : α → Text → Prop} (hE : ∀ a x, E a x → E' a x) {as : List α} {s : Text}
    (h : Listed closer E as s) : Listed closer E' as s := by
  induction h with
  | none hg => exact .none hg
  | last hg hx => exact .last hg (hE _ _ hx)
  | more hg hx _ ih => exact .more hg (hE _ _ hx) ih

theorem Listed.map {E : β → Text → Prop} {f : α → β} {as : List α} {s : Text}
    (h : Listed closer (fun a x => E (f a) x) as s) : Listed closer E (as.map f) s := by
  induction h with
  | none hg => exact .none hg
  | last hg hx => exact .last hg hx
  | more hg hx _ ih => exact .more hg hx ih

theorem Listed.exists_text {E : α → Text → Prop} {as : List α} {s : Text}
    (h : Listed closer E as s) : ∀ a ∈ as, ∃ x, E a x := by
  induction h with
  | none => simp
  | last _ hx => simpa using ⟨_, hx⟩
  | more _ hx _ ih =>
    intro b hb
    rcases List.mem_cons.1 hb with rfl | hb
    · exact ⟨_, hx⟩
    · exact ih b hb

/-- Entries of one language that are entries of another. -/
theorem Listed.transfer {E : α → Text → Prop} {E' : β → Text → Prop} {R : α → β → Prop}
    (hE : ∀ a x, E a x → ∃ b, R a b ∧ E' b x) {as : List α} {s : Text} (h : Listed closer E as s) :
    ∃ bs, List.Forall₂ R as bs ∧ Listed closer E' bs s := by
  induction h with
  | none hg => exact ⟨[], .nil, .none hg⟩
  | last hg hx =>
    obtain ⟨b, hb, hx'⟩ := hE _ _ hx
    exact ⟨[b], .cons hb .nil, .last hg hx'⟩
  | more hg hx _ ih =>
    obtain ⟨b, hb, hx'⟩ := hE _ _ hx
    obtain ⟨bs, hbs, hs⟩ := ih
    exact ⟨b :: bs, .cons hb hbs, .more hg hx' hs⟩

/-- The text of a container ends with its closing bracket. -/
theorem Listed.concat {E : α → Text → Prop} {as : List α} {s : Text} (h : Listed closer E as s) :
    ∃ r, s = r ++ [closer] := by
  induction h with
  | none hg => exact ⟨_, rfl⟩
  | last hg hx => exact ⟨_, (List.append_assoc _ _ _).symm⟩
  | @more g x s a as hg hx _ ih =>
    obtain ⟨r, rfl⟩ := ih
    exact ⟨g ++ (x ++ .char ',' :: r), by simp⟩

/-- A container is balanced from after its opening bracket, if its entries are balanced. -/
theorem Listed.balanced {E : α → Text → Prop} (hcloser : isCloser closer = true)
    (hE : ∀ a x, E a x → Balanced [] x) {as : List α} {s cs t : Text}
    (h : Listed closer E as s) (ht : Balanced cs t) : Balanced (closer :: cs) (s ++ t) := by
  have hend : ∀ {x : Text}, Balanced [] x → Balanced (closer :: cs) (x ++ closer :: t) := by
    intro x hx
    apply hx.append (.closer hcloser ht)
    intro c hc
    obtain rfl : closer = c := by simpa using hc
    exact ⟨(isCloser_spec hcloser).2.1, (isCloser_spec hcloser).2.2.2.2.1⟩
  induction h with
  | none hg =>
    rw [List.append_assoc]
    exact .gap hg (.closer hcloser ht)
  | last hg hx =>
    rw [List.append_assoc, List.append_assoc]
    exact .gap hg (hend (hE _ _ hx))
  | @more g x s a as hg hx _ ih =>
    rw [List.append_assoc, List.append_assoc]
    refine .gap hg ((hE _ _ hx).append ?_ (by simp))
    exact .plain ⟨rfl, rfl, rfl⟩ (beginsComment_of_ne (by decide) _) (by simp) ih

/-! ### One reading for both kinds of containers -/

/-- Reads the entries of a container from after its opening bracket, with its closing bracket. -/
def delimited (closer : CodePoint) (entry : Text → Reading α) : Text → Reading (List α)
  | [] =>
    match entry [] with
    | .error f => .error f
    | .ok _ => .error ⟨.expectedSeparator closer none, 0⟩
  | c :: rest =>
    match peek (c :: rest) with
    | .error f => .error f
    | .ok (found, n) =>
      if found = some closer then .ok ([], n + 1)
      else
        match (entry ((c :: rest).drop n)).further n with
        | .error f => .error f
        | .ok (a, k) =>
          match (separator closer ((c :: rest).drop k)).further k with
          | .error f => .error f
          | .ok (false, m) => .ok ([a], m + 1)
          | .ok (true, m) => ((delimited closer entry (rest.drop m)).map (a :: ·)).further (m + 1)
termination_by s => s.length
decreasing_by all_goals simp only [List.length_drop, List.length_cons]; omega

theorem field_nil : field [] = .error ⟨.expectedKey none, 0⟩ := by
  have hdots : ¬ dots.isPrefixOf [] = true := by decide
  rw [field, head, if_neg hdots, key, peek_solid solid_nil]
  rfl

theorem item_nil : item [] = .error ⟨.unexpectedEnd, 0⟩ := by
  rw [item, value]
  rfl

/-- The strict reading of an object. -/
theorem fields_eq (s : Text) : fields s = delimited '\x7d' field s := by
  induction hlen : s.length using Nat.strongRecOn generalizing s with
  | ind len ih =>
    cases s with
    | nil => rw [fields, delimited, field_nil]
    | cons c s =>
      have hrest : ∀ m, fields (s.drop m) = delimited '\x7d' field (s.drop m) := by
        intro m
        exact ih _ (length_drop_lt hlen m) _ rfl
      rw [fields, delimited]
      rcases peek (c :: s) with f | ⟨found, n⟩
      · rfl
      · rcases hentry : (field ((c :: s).drop n)).further n with f | ⟨entry, k⟩
        · simp only [hentry]
        · rcases hmark : (separator '\x7d' ((c :: s).drop k)).further k with f | ⟨comma, m⟩
          · simp only [hentry, hmark]
          · cases comma <;> simp only [hentry, hmark, hrest]

/-- The strict reading of an array. -/
theorem items_eq (s : Text) : items s = delimited ']' item s := by
  induction hlen : s.length using Nat.strongRecOn generalizing s with
  | ind len ih =>
    cases s with
    | nil => rw [items, delimited, item_nil]
    | cons c s =>
      have hrest : ∀ m, items (s.drop m) = delimited ']' item (s.drop m) := by
        intro m
        exact ih _ (length_drop_lt hlen m) _ rfl
      rw [items, delimited]
      rcases peek (c :: s) with f | ⟨found, n⟩
      · rfl
      · rcases hentry : (item ((c :: s).drop n)).further n with f | ⟨entry, k⟩
        · simp only [hentry]
        · rcases hmark : (separator ']' ((c :: s).drop k)).further k with f | ⟨comma, m⟩
          · simp only [hentry, hmark]
          · cases comma <;> simp only [hentry, hmark, hrest]

/-! ### Lists of entries are read -/

theorem delimited_of_ne_nil {s : Text} (hs : s ≠ []) :
    delimited closer entry s =
      match peek s with
      | .error f => .error f
      | .ok (found, n) =>
        if found = some closer then .ok ([], n + 1)
        else
          match (entry (s.drop n)).further n with
          | .error f => .error f
          | .ok (a, k) =>
            match (separator closer (s.drop k)).further k with
            | .error f => .error f
            | .ok (false, m) => .ok ([a], m + 1)
            | .ok (true, m) =>
              ((delimited closer entry (s.drop (m + 1))).map (a :: ·)).further (m + 1) := by
  cases s with
  | nil => exact absurd rfl hs
  | cons c s =>
    rw [delimited]
    rfl

/-- The text `x` is read as the entry `a`, before any mark that ends an entry; layout at its end may
be left over. -/
structure ReadAs (closer : CodePoint) (entry : Text → Reading α) (a : α) (x : Text) : Prop where
  solid : Solid x
  head : ∃ c r, x = c :: r ∧ c ≠ closer
  read : ∀ comma s, ∃ p g, x = p ++ g ∧ Gap g ∧
    entry (x ++ endMark closer comma :: s) = .ok (a, p.length)

theorem stops_endMark (hcloser : isCloser closer = true) (comma : Bool) (s : Text) :
    Stops (endMark closer comma :: s) := by
  intro c hc
  obtain rfl : endMark closer comma = c := by simpa using hc
  cases comma with
  | true => exact .inl rfl
  | false => exact .inr hcloser

theorem ne_comma_of_isCloser (hcloser : isCloser closer = true) : closer ≠ .char ',' :=
  (isCloser_spec hcloser).2.2.2.1

/-- How a reading of entries gets past one: to the entry, through it, and to the mark behind it. -/
theorem ReadAs.steps {g x : Text} {a : α} (hcloser : isCloser closer = true) (hg : Gap g)
    (hx : ReadAs closer entry a x) (comma : Bool) (s : Text) :
    ∃ found k, peek (g ++ (x ++ endMark closer comma :: s)) = .ok (found, g.length) ∧
      found ≠ some closer ∧
      (entry ((g ++ (x ++ endMark closer comma :: s)).drop g.length)).further g.length =
        .ok (a, k) ∧
      (separator closer ((g ++ (x ++ endMark closer comma :: s)).drop k)).further k =
        .ok (comma, g.length + x.length) ∧
      (g ++ (x ++ endMark closer comma :: s)).drop (g.length + x.length + 1) = s := by
  have hstops := stops_endMark hcloser comma s
  obtain ⟨c, r, hcr, hc⟩ := hx.head
  obtain ⟨p, g', hp, hg', hread⟩ := hx.read comma s
  have hsolid : Solid (x ++ endMark closer comma :: s) :=
    hx.solid.append (by simp [hcr]) hstops.apart
  have hmark : separator closer (g' ++ endMark closer comma :: s) = .ok (comma, g'.length) :=
    separator_append hg' hstops.solid (ne_comma_of_isCloser hcloser)
  -- the entry ends before the layout that is left over
  have hdrop : (g ++ (x ++ endMark closer comma :: s)).drop (g.length + p.length) =
      g' ++ endMark closer comma :: s := by
    rw [hp, List.append_assoc, ← List.append_assoc, ← List.length_append, List.drop_left]
  have hlength : g.length + p.length + g'.length = g.length + x.length := by
    rw [hp, List.length_append]
    omega
  refine ⟨_, g.length + p.length, peek_append hg hsolid, by simp [hcr, hc], ?_, ?_, ?_⟩
  · rw [List.drop_left, hread, Reading.further_ok]
  · rw [hdrop, hmark, Reading.further_ok, hlength]
  · rw [Nat.add_assoc, ← List.drop_drop, List.drop_left, ← List.drop_drop, List.drop_left]
    rfl

/-- One entry and the mark behind it. -/
theorem delimited_entry {g x : Text} {a : α} (hcloser : isCloser closer = true) (hg : Gap g)
    (hx : ReadAs closer entry a x) (comma : Bool) (s : Text) :
    delimited closer entry (g ++ (x ++ endMark closer comma :: s)) =
      if comma then
        ((delimited closer entry s).map (a :: ·)).further (g.length + (x.length + 1))
      else .ok ([a], g.length + (x.length + 1)) := by
  obtain ⟨found, k, hpeek, hfound, hread, hmark, hrest⟩ := hx.steps hcloser hg comma s
  rw [delimited_of_ne_nil (by simp), hpeek]
  simp only [if_neg hfound, hread, hmark]
  cases comma with
  | true =>
    simp only [hrest, if_true]
    rw [Nat.add_assoc]
  | false =>
    simp only [Bool.false_eq_true, if_false]
    rw [Nat.add_assoc]

theorem delimited_end {g : Text} (hcloser : isCloser closer = true) (hg : Gap g) (s : Text) :
    delimited closer entry (g ++ closer :: s) = .ok ([], g.length + 1) := by
  have hsolid : Solid (closer :: s) := (stops_endMark hcloser false s).solid
  rw [delimited_of_ne_nil (by simp), peek_append hg hsolid]
  simp

/-- A list of entries is read, whatever follows it. -/
theorem delimited_append {E : β → Text → Prop} {f : β → α} (hcloser : isCloser closer = true)
    (hE : ∀ b x, E b x → ReadAs closer entry (f b) x) {bs : List β} {s : Text}
    (h : Listed closer E bs s) (t : Text) :
    delimited closer entry (s ++ t) = .ok (bs.map f, s.length) := by
  induction h with
  | @none g hg =>
    rw [List.append_assoc, List.singleton_append, delimited_end hcloser hg, List.length_append]
    rfl
  | @last g x a hg hx =>
    rw [List.append_assoc, List.append_assoc, List.singleton_append]
    have := delimited_entry hcloser hg (hE _ _ hx) false t
    simp only [endMark, Bool.false_eq_true, if_false] at this
    rw [this]
    simp
  | @more g x s a as hg hx _ ih =>
    rw [List.append_assoc, List.append_assoc, List.cons_append]
    have := delimited_entry hcloser hg (hE _ _ hx) true (s ++ t)
    simp only [endMark, if_true, ih] at this
    rw [this]
    simp only [Reading.map, Reading.further_ok, List.map_cons, List.length_append, List.length_cons]
    congr 2
    omega

/-! ### What is read is a list of entries -/

theorem ne_nil_of_separator {s : Text} {k m : Nat} {comma : Bool}
    (h : separator closer (s.drop k) = .ok (comma, m)) : s ≠ [] := by
  rintro rfl
  rw [List.drop_nil] at h
  obtain ⟨g, r, hnil, -⟩ := gap_of_separator h
  simp at hnil

/-- A reading of entries is at the closing bracket, or reads an entry and goes on behind the mark
after it. -/
theorem delimited_cases {s : Text} {as : List α} {n : Nat}
    (h : delimited closer entry s = .ok (as, n)) :
    (∃ g r, s = g ++ closer :: r ∧ Gap g ∧ as = [] ∧ n = g.length + 1) ∨
      ∃ g x a k comma m, s = g ++ x ∧ Gap g ∧ Solid x ∧ x.head? ≠ some closer ∧
        entry x = .ok (a, k) ∧ separator closer (x.drop k) = .ok (comma, m) ∧
        if comma then
          ∃ as' n', delimited closer entry (x.drop (k + m + 1)) = .ok (as', n') ∧ as = a :: as' ∧
            n = g.length + (k + m + 1 + n')
        else as = [a] ∧ n = g.length + (k + m + 1) := by
  cases s with
  | nil =>
    rw [delimited] at h
    split at h <;> cases h
  | cons c s =>
    rw [delimited_of_ne_nil (by simp)] at h
    split at h
    · cases h
    · next found m hpeek =>
      obtain ⟨g, x, hs, rfl, rfl, hsolid, hg, -⟩ := gap_of_peek hpeek
      rw [hs]
      rw [hs] at h
      split at h
      · next hfound =>
        -- the closing bracket stands at once
        obtain ⟨rfl, rfl⟩ := Prod.mk.inj (Except.ok.inj h)
        cases x with
        | nil => cases hfound
        | cons d x =>
          obtain rfl : d = closer := by simpa using hfound
          exact .inl ⟨g, x, rfl, hg (by simp), rfl, rfl⟩
      · next hfound =>
        rw [List.drop_left] at h
        split at h
        · cases h
        · next a k' hentry =>
          obtain ⟨k, hentry', rfl⟩ := Reading.further_eq_ok hentry
          have hdrop : ∀ i, (g ++ x).drop (g.length + i) = x.drop i := by
            intro i
            rw [← List.drop_drop, List.drop_left]
          rw [hdrop] at h
          split at h
          · cases h
          · next m' hmark =>
            -- the last entry
            obtain ⟨m, hmark', rfl⟩ := Reading.further_eq_ok hmark
            obtain ⟨rfl, rfl⟩ := Prod.mk.inj (Except.ok.inj h)
            exact .inr ⟨g, x, a, k, false, m, rfl, hg (ne_nil_of_separator hmark'), hsolid, hfound,
              hentry', hmark', rfl, by omega⟩
          · next m' hmark =>
            -- a comma, and the entries behind it
            obtain ⟨m, hmark', rfl⟩ := Reading.further_eq_ok hmark
            rw [show g.length + k + m + 1 = g.length + (k + m + 1) by omega, hdrop] at h
            obtain ⟨n', hmap, rfl⟩ := Reading.further_eq_ok h
            obtain ⟨as', hrest, rfl⟩ := Reading.map_eq_ok hmap
            exact .inr ⟨g, x, a, k, true, m, rfl, hg (ne_nil_of_separator hmark'), hsolid, hfound,
              hentry', hmark', as', n', hrest, rfl, by omega⟩

/-- What is read as a list of entries is one, at the front of the text, if what is read as an entry
up to the mark behind it is one. -/
theorem listed_of_delimited {E : β → Text → Prop} {f : β → α} {len : Nat}
    (hentry : ∀ x a k comma m, x.length ≤ len → Solid x → x.head? ≠ some closer →
      entry x = .ok (a, k) → separator closer (x.drop k) = .ok (comma, m) →
      ∃ b y r, x = y ++ endMark closer comma :: r ∧ k + m = y.length ∧ f b = a ∧ E b y)
    {s : Text} {as : List α} {n : Nat} (hlen : s.length ≤ len)
    (h : delimited closer entry s = .ok (as, n)) :
    ∃ bs body r, as = bs.map f ∧ s = body ++ r ∧ n = body.length ∧ Listed closer E bs body := by
  induction hs : s.length using Nat.strongRecOn generalizing s as n with
  | ind len' ih =>
    rcases delimited_cases h with ⟨g, r, rfl, hg, rfl, rfl⟩ |
      ⟨g, x, a, k, comma, m, rfl, hg, hsolid, hfound, hread, hmark, hgo⟩
    · exact ⟨[], g ++ [closer], r, rfl, by simp, by simp, .none hg⟩
    · rw [List.length_append] at hlen hs
      obtain ⟨b, y, r, rfl, hkm, rfl, hy⟩ :=
        hentry x a k comma m (by omega) hsolid hfound hread hmark
      cases comma with
      | false =>
        obtain ⟨rfl, rfl⟩ := hgo
        refine ⟨[b], g ++ (y ++ [closer]), r, rfl, by simp [endMark], ?_, .last hg hy⟩
        simp only [List.length_append, List.length_singleton]
        omega
      | true =>
        obtain ⟨as, n', hrest, rfl, rfl⟩ := hgo
        have hdrop : (y ++ endMark closer true :: r).drop (k + m + 1) = r := by
          rw [hkm, ← List.drop_drop, List.drop_left]
          rfl
        rw [hdrop] at hrest
        simp only [List.length_append, List.length_cons] at hlen hs
        obtain ⟨bs, body, r, rfl, rfl, rfl, hbody⟩ := ih r.length (by omega) (by omega) hrest rfl
        refine ⟨b :: bs, g ++ (y ++ .char ',' :: body), r, rfl, by simp [endMark], ?_,
          .more hg hy hbody⟩
        simp only [List.length_append, List.length_cons]
        omega

/-! ### The lenient reading -/

/-- Where the strict reading finds entries up to the closing bracket, so does the lenient one. -/
theorem rawEntries_of_delimited {s : Text} {as : List α} {n : Nat}
    (h : delimited closer entry s = .ok (as, n)) : rawEntries closer entry s = ⟨as, none⟩ := by
  induction hs : s.length using Nat.strongRecOn generalizing s as n with
  | ind len ih =>
    cases s with
    | nil =>
      rw [delimited] at h
      split at h <;> cases h
    | cons c s =>
      rw [delimited] at h
      rw [rawEntries]
      cases hpeek : peek (c :: s) with
      | error f =>
        rw [hpeek] at h
        cases h
      | ok found =>
        obtain ⟨found, m⟩ := found
        rw [hpeek] at h
        simp only at h ⊢
        by_cases hfound : found = some closer
        · rw [if_pos hfound] at h ⊢
          obtain ⟨rfl, -⟩ := Prod.mk.inj (Except.ok.inj h)
          rfl
        rw [if_neg hfound] at h ⊢
        cases hread : (entry ((c :: s).drop m)).further m with
        | error f =>
          rw [hread] at h
          cases h
        | ok read =>
          obtain ⟨a, k⟩ := read
          rw [hread] at h
          simp only at h ⊢
          cases hmark : (separator closer ((c :: s).drop k)).further k with
          | error f =>
            rw [hmark] at h
            cases h
          | ok mark =>
            obtain ⟨comma, m'⟩ := mark
            rw [hmark] at h
            cases comma with
            | false =>
              obtain ⟨rfl, -⟩ := Prod.mk.inj (Except.ok.inj h)
              rfl
            | true =>
              -- the entries behind the comma are on a shorter text
              obtain ⟨n', hmap, -⟩ := Reading.further_eq_ok h
              obtain ⟨as', hrest, rfl⟩ := Reading.map_eq_ok hmap
              simp only [ih _ (length_drop_lt hs m') hrest rfl]
              rfl

/-- Where the lenient reading ends without a fault, it has come to the closing bracket. -/
theorem delimited_of_rawEntries {s : Text} {as : List α}
    (h : rawEntries closer entry s = ⟨as, none⟩) :
    ∃ n, delimited closer entry s = .ok (as, n) := by
  induction hs : s.length using Nat.strongRecOn generalizing s as with
  | ind len ih =>
    cases s with
    | nil =>
      rw [rawEntries] at h
      split at h <;> cases h
    | cons c s =>
      rw [rawEntries] at h
      rw [delimited]
      rcases hpeek : peek (c :: s) with f | ⟨found, m⟩
      · rw [hpeek] at h
        cases h
      rw [hpeek] at h
      simp only at h ⊢
      by_cases hfound : found = some closer
      · rw [if_pos hfound] at h ⊢
        cases h
        exact ⟨_, rfl⟩
      rw [if_neg hfound] at h ⊢
      rcases hread : (entry ((c :: s).drop m)).further m with f | ⟨a, k⟩
      · rw [hread] at h
        cases h
      rw [hread] at h
      simp only at h ⊢
      rcases hmark : (separator closer ((c :: s).drop k)).further k with f | ⟨comma, m'⟩
      · rw [hmark] at h
        cases h
      rw [hmark] at h
      cases comma with
      | false =>
        cases h
        exact ⟨_, rfl⟩
      | true =>
        -- the entries behind the comma are on a shorter text
        rcases hrest : rawEntries closer entry (s.drop m') with ⟨list, fault⟩
        simp only [hrest, Entries.cons, Entries.mk.injEq, Option.map_eq_none_iff] at h
        obtain ⟨rfl, rfl⟩ := h
        obtain ⟨n, hn⟩ := ih _ (length_drop_lt hs m') hrest rfl
        simp only [hn]
        exact ⟨_, rfl⟩

theorem rawEntries_of_ne_nil {s : Text} (hs : s ≠ []) :
    rawEntries closer entry s =
      match peek s with
      | .error f => .stopped f
      | .ok (found, n) =>
        if found = some closer then ⟨[], none⟩
        else
          match (entry (s.drop n)).further n with
          | .error f => .stopped f
          | .ok (a, k) =>
            match (separator closer (s.drop k)).further k with
            | .error f => ⟨[a], some f⟩
            | .ok (false, _) => ⟨[a], none⟩
            | .ok (true, m) => .cons a (m + 1) (rawEntries closer entry (s.drop (m + 1))) := by
  cases s with
  | nil => exact absurd rfl hs
  | cons c s =>
    rw [rawEntries]
    rfl

/-- One entry and the comma behind it are cut off, whatever follows them. -/
theorem rawEntries_entry {g x : Text} {a : α} (hcloser : isCloser closer = true) (hg : Gap g)
    (hx : ReadAs closer entry a x) (s : Text) :
    rawEntries closer entry (g ++ (x ++ .char ',' :: s)) =
      .cons a (g.length + x.length + 1) (rawEntries closer entry s) := by
  obtain ⟨found, k, hpeek, hfound, hread, hmark, hrest⟩ := hx.steps hcloser hg true s
  simp only [endMark, if_true] at hpeek hread hmark hrest
  rw [rawEntries_of_ne_nil (by simp), hpeek]
  simp only [if_neg hfound, hread, hmark, hrest]

/-- Entries with a comma behind each are cut off one after another, and what follows them is then
read as if it stood by itself. -/
theorem rawEntries_run {text : α → Text} {as : List α} (hcloser : isCloser closer = true)
    (h : ∀ a ∈ as, ReadAs closer entry a (text a)) (s : Text) :
    rawEntries closer entry ((as.flatMap fun a => text a ++ [.char ',']) ++ s) =
      ⟨as ++ (rawEntries closer entry s).list, (rawEntries closer entry s).fault.map
        (·.further (as.flatMap fun a => text a ++ [.char ',']).length)⟩ := by
  induction as with
  | nil =>
    have hzero : (fun f : Fault => f.further 0) = id := by
      funext f
      rw [Fault.further, Nat.zero_add, id]
    rw [List.flatMap_nil, List.nil_append, List.nil_append, List.length_nil, hzero, Option.map_id,
      id]
  | cons a as ih =>
    have hrest := ih fun b hb => h b (List.mem_cons_of_mem a hb)
    have hentry := rawEntries_entry hcloser .nil (h a List.mem_cons_self)
      ((as.flatMap fun b => text b ++ [.char ',']) ++ s)
    rw [hrest, List.nil_append] at hentry
    rw [List.flatMap_cons, List.append_assoc, List.append_assoc, List.singleton_append, hentry,
      Entries.cons, Option.map_map]
    refine congrArg (Entries.mk _) (congrArg (Option.map · _) ?_)
    funext f
    simp only [Function.comp_apply, Fault.further, List.length_append, List.length_singleton,
      List.length_nil, Nat.zero_add, Nat.add_assoc]

/-- A container whose opening bracket comes first, behind which entries stand. -/
theorem rawContainer_run {text : α → Text} {as : List α} {opener : CodePoint}
    (hcloser : isCloser closer = true) (hopener : ∀ s, Solid (opener :: s))
    (h : ∀ a ∈ as, ReadAs closer entry a (text a)) (s : Text) :
    rawContainer opener closer entry
        (opener :: ((as.flatMap fun a => text a ++ [.char ',']) ++ s)) =
      ⟨as ++ (rawContainer opener closer entry (opener :: s)).list,
        (rawContainer opener closer entry (opener :: s)).fault.map
          (·.further (as.flatMap fun a => text a ++ [.char ',']).length)⟩ := by
  have hopen : ∀ t, rawContainer opener closer entry (opener :: t) =
      ⟨(rawEntries closer entry t).list,
        (rawEntries closer entry t).fault.map (·.further 1)⟩ := by
    intro t
    rw [rawContainer, ← List.nil_append (opener :: t), expect_append .nil (hopener t)]
    rfl
  rw [hopen, hopen, rawEntries_run hcloser h]
  refine congrArg (Entries.mk _) ?_
  rw [Option.map_map, Option.map_map]
  refine congrArg (Option.map · _) ?_
  funext f
  simp only [Function.comp_apply, Fault.further, Nat.add_left_comm]

/-- A container is read leniently to its end, whatever follows it. -/
theorem rawContainer_append {E : β → Text → Prop} {f : β → α} {opener : CodePoint} {g body : Text}
    {bs : List β} (hcloser : isCloser closer = true) (hE : ∀ b x, E b x → ReadAs closer entry (f b) x)
    (hg : Gap g) (hopener : ∀ s, Solid (opener :: s)) (h : Listed closer E bs body) (t : Text) :
    rawContainer opener closer entry (g ++ opener :: (body ++ t)) = ⟨bs.map f, none⟩ := by
  have hdrop : (g ++ opener :: (body ++ t)).drop (g.length + 1) = body ++ t := by
    rw [← List.drop_drop, List.drop_left]
    rfl
  have hentries := rawEntries_of_delimited (delimited_append hcloser hE h t)
  rw [rawContainer, expect_append hg (hopener _)]
  simp only [hdrop, hentries]
  rfl

end TailwindUpgrade.Literal
