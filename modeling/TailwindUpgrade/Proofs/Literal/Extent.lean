/-
TailwindUpgrade/Proofs/Literal/Extent.lean

How far an object goes.  The lenient reading of an object asks less of a value than the strict one:
any self-contained text will do.  What it cuts out of a text is therefore a language of its own
(`CutField`), and it is one in which every entry is found whatever stands behind it
(`CutField.readAs`) and nothing else is (`cutField_of_rawField`).

Main result: an object that is read without a fault to its last character is read in the same way
before any other text (`properties_append_of_whole`).  `rawObject` is the lenient reading of an
object that also says where it ended; without that it is the one that is used
(`properties_eq_iff`).
-/
import TailwindUpgrade.Proofs.Literal.Soundness

namespace TailwindUpgrade.Literal

/-- An entry of an object as its key and the source of its value: a key and a colon before an
expression, a key that stands alone, or a spread expression. -/
inductive CutField : Text × Text → Text → Prop
  | keyed {k u g g' e b : Text} :
      Key k u → Gap g → Gap g' → SelfContained e → Trailing e b →
      CutField (k, e) (u ++ (g ++ .char ':' :: (g' ++ (e ++ b))))
  | shorthand {k u g : Text} : Key k u → Gap g → CutField (k, k) (u ++ g)
  | spread {g e b : Text} :
      Gap g → SelfContained e → Trailing e b → CutField (dots ++ e, e) (dots ++ (g ++ (e ++ b)))

variable {f : Text × Text} {x : Text}

/-! ### Every entry is found -/

/-- A key and a colon before an expression. -/
theorem rawField_keyed {k u g rest source : Text} {n : Nat} (hk : Key k u) (hg : Gap g)
    (hrest : expression rest = .ok (source, n)) :
    rawField (u ++ (g ++ .char ':' :: rest)) =
      .ok ((k, source), u.length + (g.length + 1) + n) := by
  rw [rawField, head_keyed hk hg]
  simp only [drop_heading, hrest]
  rfl

theorem CutField.head (h : CutField f x) : ∃ c r, x = c :: r ∧ c ≠ .char '\x7d' := by
  cases h with
  | keyed hk | shorthand hk =>
    obtain ⟨c, r, rfl, -, -, -, hc⟩ := hk.head
    exact ⟨c, _, rfl, hc⟩
  | spread => exact ⟨.char '.', _, rfl, by decide⟩

theorem CutField.solid (h : CutField f x) : Solid x := by
  cases h with
  | keyed hk | shorthand hk => exact hk.solid_append _
  | spread => exact solid_dots _

/-- An entry is read as itself before any mark that ends it. -/
theorem CutField.readAs (h : CutField f x) : ReadAs '\x7d' rawField f x := by
  refine ⟨h.solid, h.head, fun comma s => ⟨x, [], (List.append_nil x).symm, .nil, ?_⟩⟩
  have hstops := stops_endMark isCloser_brace comma s
  cases h with
  | @keyed k u g g' e b hk hg hg' he hb =>
    have hread := rawField_keyed hk hg (expression_append hg' he hb hstops)
    have htext : u ++ (g ++ .char ':' :: (g' ++ (e ++ b))) ++ endMark '\x7d' comma :: s =
        u ++ (g ++ .char ':' :: (g' ++ (e ++ (b ++ endMark '\x7d' comma :: s)))) := by simp
    rw [htext, hread]
    simp only [List.length_append, List.length_cons]
    congr 2
    omega
  | @shorthand k u g hk hg =>
    have hhead := head_shorthand hk hg (endMark_brace comma) s
    rw [List.append_assoc, rawField, hhead, List.length_append]
  | @spread g e b hg he hb =>
    have hhead := head_spread hg he hb hstops
    simp only [List.append_assoc]
    rw [rawField, hhead]
    simp only [List.length_append]
    rfl

/-- An expression is read as an element of an array, unless it begins like a spread. -/
theorem readAs_rawItem {e b : Text} (he : SelfContained e) (hb : Trailing e b)
    (hdots : dots.isPrefixOf e = false) : ReadAs ']' rawItem e (e ++ b) := by
  obtain ⟨c, r, hcons, hc⟩ := he.head
  refine ⟨he.solid.append he.ne_nil (apart_of_blanks hb.1), ⟨c, r ++ b, ?_, ?_⟩,
    fun comma s => ⟨_, [], (List.append_nil _).symm, .nil, ?_⟩⟩
  · rw [hcons, List.cons_append]
  · rintro rfl
    exact absurd hc (by decide)
  · have hstops := stops_endMark isCloser_bracket comma s
    have hread := expression_append .nil he hb hstops
    have hnot := dots_isPrefixOf_append hdots he.ne_nil (point_of_trailing hb.1 hstops)
    rw [List.nil_append, List.length_nil, Nat.zero_add] at hread
    rw [List.append_assoc, rawItem, if_neg (ne_true_of_eq_false hnot), hread]

/-! ### Nothing else is found -/

/-- What is read as an entry before a mark is one. -/
theorem cutField_of_rawField {k m : Nat} {comma : Bool} (hsolid : Solid x)
    (h : rawField x = .ok (f, k)) (hmark : separator '\x7d' (x.drop k) = .ok (comma, m)) :
    ∃ y r, x = y ++ endMark '\x7d' comma :: r ∧ k + m = y.length ∧ CutField f y := by
  rcases hhead : Literal.head x with f' | ⟨heading, n⟩
  · rw [rawField, hhead] at h
    cases h
  rw [rawField, hhead] at h
  rcases head_cases hsolid hhead with ⟨name, u, g, r, rfl, rfl, rfl, hk, hg⟩ |
    ⟨name, u, g, c, r, rfl, hc, rfl, rfl, hk, hg⟩ |
    ⟨source, g, b, r, rfl, rfl, rfl, hg, he, -, hr, hb⟩
  · -- a key and a colon: the expression is what stands before the mark
    simp only [drop_heading] at h
    obtain ⟨k, hmap, rfl⟩ := Reading.further_eq_ok h
    obtain ⟨e, hexpr, rfl⟩ := Reading.map_eq_ok hmap
    rw [← List.drop_drop, drop_heading] at hmark
    obtain ⟨g', b, r, rfl, hlength, hg', he, hb⟩ := placed_of_expression hexpr hmark
    refine ⟨u ++ (g ++ .char ':' :: (g' ++ (e ++ b))), r, by simp, ?_, .keyed hk hg hg' he hb⟩
    simp only [List.length_append, List.length_cons] at hlength ⊢
    omega
  · -- a key alone: the mark that ends it is the one that was read
    obtain ⟨rfl, rfl⟩ := Prod.mk.inj (Except.ok.inj h)
    rw [← List.drop_drop, List.drop_left, List.drop_left] at hmark
    obtain ⟨rfl, r', hr'⟩ := mark_of_separator (solid_endField hc r) hmark
    rw [hr']
    exact ⟨u ++ g, r', by simp, by simp, .shorthand hk hg⟩
  · -- a spread: its expression stops before the mark
    obtain ⟨rfl, rfl⟩ := Prod.mk.inj (Except.ok.inj h)
    have hdrop :
        (dots ++ (g ++ (source ++ (b ++ r)))).drop (3 + (g.length + (source ++ b).length)) = r := by
      rw [← List.drop_drop, drop_dots, ← List.drop_drop, List.drop_left, ← List.append_assoc,
        List.drop_left]
    rw [hdrop] at hmark
    obtain ⟨rfl, r, rfl⟩ := mark_of_separator hr.solid hmark
    refine ⟨dots ++ (g ++ (source ++ b)), r, by simp, ?_, .spread hg he (hb (by simp))⟩
    simp only [List.length_append]
    rfl

/-- What is read as the entries of an object up to its closing brace is a list of entries. -/
theorem listed_of_rawFields {s : Text} {as : List (Text × Text)} {n : Nat}
    (h : delimited '\x7d' rawField s = .ok (as, n)) :
    ∃ body r, s = body ++ r ∧ n = body.length ∧ Listed '\x7d' CutField as body := by
  have hentry : ∀ x f k comma m, x.length ≤ s.length → Solid x → x.head? ≠ some (.char '\x7d') →
      rawField x = .ok (f, k) → separator '\x7d' (x.drop k) = .ok (comma, m) →
      ∃ b y r, x = y ++ endMark '\x7d' comma :: r ∧ k + m = y.length ∧ id b = f ∧ CutField b y := by
    intro x f k comma m _ hsolid _ hread hmark
    obtain ⟨y, r, hx, hlength, hy⟩ := cutField_of_rawField hsolid hread hmark
    exact ⟨f, y, r, hx, hlength, rfl, hy⟩
  obtain ⟨bs, body, r, rfl, hs, hn, hbody⟩ := listed_of_delimited hentry (le_refl s.length) h
  rw [List.map_id]
  exact ⟨body, r, hs, hn, hbody⟩

/-! ### The whole object -/

/-- Reads an object leniently up to its closing brace, and says where it ended. -/
def rawObject (s : Text) : Reading (List (Text × Text)) :=
  (expect '\x7b' s).andThen fun _ n => delimited '\x7d' rawField (s.drop n)

/-- Ending without a fault is coming to the closing brace. -/
theorem properties_eq_iff {s : Text} {as : List (Text × Text)} :
    properties s = ⟨as, none⟩ ↔ ∃ n, rawObject s = .ok (as, n) := by
  rw [properties, rawContainer, rawObject]
  rcases expect '\x7b' s with f | ⟨-, n⟩
  · simp [Entries.stopped, Reading.andThen]
  · simp only [Reading.andThen, Entries.mk.injEq, Option.map_eq_none_iff]
    constructor
    · rintro ⟨hlist, hfault⟩
      have hraw : rawEntries '\x7d' rawField (s.drop n) = ⟨as, none⟩ :=
        congrArg₂ Entries.mk hlist hfault
      obtain ⟨k, hk⟩ := delimited_of_rawEntries hraw
      exact ⟨n + k, by rw [hk, Reading.further_ok]⟩
    · rintro ⟨k, hk⟩
      obtain ⟨k, hk, -⟩ := Reading.further_eq_ok hk
      rw [rawEntries_of_delimited hk]
      exact ⟨rfl, rfl⟩

/-- What is read as an object is layout, the opening brace and a list of entries. -/
theorem listed_of_rawObject {s : Text} {as : List (Text × Text)} {n : Nat}
    (h : rawObject s = .ok (as, n)) :
    ∃ g body r, s = g ++ .char '\x7b' :: (body ++ r) ∧ n = g.length + (body.length + 1) ∧ Gap g ∧
      Listed '\x7d' CutField as body := by
  rw [rawObject] at h
  rcases hopen : expect '\x7b' s with f | ⟨⟨⟩, m⟩
  · rw [hopen] at h
    cases h
  rw [hopen] at h
  obtain ⟨g, r, rfl, rfl, hg⟩ := gap_of_expect hopen
  obtain ⟨k, hrest, rfl⟩ := Reading.further_eq_ok h
  have hdrop : (g ++ .char '\x7b' :: r).drop (g.length + 1) = r := by
    rw [← List.drop_drop, List.drop_left]
    rfl
  simp only [hdrop] at hrest
  obtain ⟨body, r, rfl, rfl, hbody⟩ := listed_of_rawFields hrest
  exact ⟨g, body, r, rfl, by omega, hg, hbody⟩

theorem rawObject_gap {g : Text} (hg : Gap g) (s : Text) :
    rawObject (g ++ .char '\x7b' :: s) = (rawObject (.char '\x7b' :: s)).further g.length := by
  have hdrop : (g ++ .char '\x7b' :: s).drop (g.length + 1) = s := by
    rw [← List.drop_drop, List.drop_left]
    rfl
  have hopen : expect '\x7b' (.char '\x7b' :: s) = .ok ((), 1) := expect_append .nil (solid_brace s)
  rw [rawObject, rawObject, expect_append hg (solid_brace s), hopen]
  simp only [Reading.andThen, hdrop, Reading.further_further]
  rfl

/-- An object that is read to its last character is layout, the opening brace and a list of
entries. -/
theorem listed_of_whole {s : Text} {as : List (Text × Text)}
    (h : rawObject s = .ok (as, s.length)) :
    ∃ g body, s = g ++ .char '\x7b' :: body ∧ Gap g ∧ Listed '\x7d' CutField as body := by
  obtain ⟨g, body, r, rfl, hlength, hg, hbody⟩ := listed_of_rawObject h
  -- nothing is left behind the closing brace
  obtain rfl : r = [] := by
    simp only [List.length_append, List.length_cons] at hlength
    exact List.eq_nil_of_length_eq_zero (by omega)
  exact ⟨g, body, by rw [List.append_nil], hg, hbody⟩

/-- The last character is then the closing brace. -/
theorem concat_of_whole {s : Text} {as : List (Text × Text)}
    (h : rawObject s = .ok (as, s.length)) : ∃ r, s = r ++ [.char '\x7d'] := by
  obtain ⟨g, body, rfl, -, hbody⟩ := listed_of_whole h
  obtain ⟨r, rfl⟩ := hbody.concat
  exact ⟨g ++ .char '\x7b' :: r, by simp⟩

/-- An object that is read to its last character is read in the same way before any text. -/
theorem properties_append_of_whole {s : Text} {as : List (Text × Text)}
    (h : rawObject s = .ok (as, s.length)) (t : Text) : properties (s ++ t) = ⟨as, none⟩ := by
  obtain ⟨g, body, rfl, hg, hbody⟩ := listed_of_whole h
  have hread := rawContainer_append (f := id) isCloser_brace
    (fun _ _ (hx : CutField _ _) => hx.readAs) hg solid_brace hbody t
  rw [List.map_id] at hread
  rw [List.append_assoc]
  exact hread

end TailwindUpgrade.Literal
