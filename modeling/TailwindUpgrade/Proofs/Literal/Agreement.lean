/-
TailwindUpgrade/Proofs/Literal/Agreement.lean

The lenient reading agrees with the strict one.  A text that the strict reading takes for an object
is cut into the same entries by both: under the same names, in the same order, and without a fault.
The source that is cut out for a value reads again as that value, and what only the lenient reading
looks at as a source, a spread or a key that stands alone, is that source to the strict one.  The
same holds of arrays.

Both readings of a container are one loop over different readers of entries, so the strict entries
are those of `rawContainer` with the strict readers of entries, and `sourced` tells the headings of
the lenient ones.

Main result: for every text that is read as an object, and for every one that is read as an array,
there are entries that both readings find in it (`readings_agree`).
-/
import TailwindUpgrade.Proofs.Literal.Soundness

namespace TailwindUpgrade.Literal

/-- The source of a value that stands after a key reads as the value; every other entry has its
source for a value. -/
def Entry.Agrees (entry : Entry) : Prop :=
  match entry.head with
  | .keyed _ => read entry.source = .ok entry.value
  | .shorthand key => entry.source = key ∧ entry.value = .expr key
  | .spread source => entry.source = source ∧ entry.value = .expr source

/-- The source of an entry of an array reads as its value; a spread has its source for a value. -/
def ItemAgrees (value : Value) (source : Text) : Prop :=
  if dots.isPrefixOf source then value = .expr source else read source = .ok value

/-- Both readings of the object `text` find `entries`, and the record `fields` is made of them. -/
structure ObjectAgrees (text : Text) (fields : Record Value) (entries : List Entry) : Prop where
  strict : rawContainer '\x7b' '\x7d' field text = ⟨entries.map Entry.field, none⟩
  headings : rawContainer '\x7b' '\x7d' sourced text =
    ⟨entries.map fun entry => (entry.head, entry.source), none⟩
  lenient : properties text = ⟨entries.map fun entry => (entry.head.name, entry.source), none⟩
  agrees : ∀ entry ∈ entries, entry.Agrees
  folded : fields = Record.ofList (entries.map fun entry => (entry.head.name, entry.value))

/-- Both readings of the array `text` find `items`, as values and as sources. -/
structure ArrayAgrees (text : Text) (values : List Value) (items : List (Value × Text)) : Prop where
  strict : rawContainer '[' ']' item text = ⟨items.map Prod.fst, none⟩
  lenient : elements text = ⟨items.map Prod.snd, none⟩
  agrees : ∀ item ∈ items, ItemAgrees item.1 item.2
  values : values = items.map Prod.fst

/-! ### Entries -/

theorem FieldText.agrees {entry : Entry} {x : Text} (h : FieldText Closed entry x) :
    entry.Agrees := by
  cases h with
  | keyed _ _ _ hx => exact hx.read_source fun _ _ hu => hu.reads
  | shorthand => exact ⟨rfl, rfl⟩
  | spread => exact ⟨rfl, rfl⟩

theorem ItemText.agrees {a : Value × Text} {x : Text} (h : ItemText Closed a x) :
    ItemAgrees a.1 a.2 := by
  cases h with
  | value hx hdots =>
    rw [ItemAgrees, if_neg (by simp [hdots])]
    exact hx.read_source fun _ _ hu => hu.reads
  | spread => rw [ItemAgrees, if_pos (isPrefixOf_dots_append _)]

/-! ### Atoms -/

/-- A value that is written as a keyword or as a number. -/
inductive IsAtom : Value → Prop
  | null : IsAtom .null
  | bool (b : Bool) : IsAtom (.bool b)
  | int (n : Int) : IsAtom (.int n)
  | float (x : Binary64) : IsAtom (.float x)


theorem isAtom_of_numberValue {n : Numeral} {v : Value} (h : numberValue n = .ok v) :
    IsAtom v := by
  unfold numberValue at h
  split at h
  · split at h
    · exact Except.ok.inj h ▸ .int _
    · cases h
  · exact Except.ok.inj h ▸ .float _

/-- The value of an expression is an atom, or the expression itself. -/
theorem isAtom_or_expr {e : Text} {v : Value} (h : expressionValue e = .ok v) :
    IsAtom v ∨ v = .expr e := by
  rw [expressionValue] at h
  split_ifs at h
  · exact .inl (Except.ok.inj h ▸ .bool true)
  · exact .inl (Except.ok.inj h ▸ .bool false)
  · exact .inl (Except.ok.inj h ▸ .null)
  · split at h
    · exact .inl (isAtom_of_numberValue h)
    · exact .inr (Except.ok.inj h).symm

/-- An expression is no container. -/
theorem Bare.not_container {v : Value} {e : Text} (h : Bare v e) :
    (∀ items, v ≠ .array items) ∧ ∀ fields, v ≠ .object fields := by
  cases h with
  | word _ _ hvalue =>
    rcases isAtom_or_expr hvalue with hatom | rfl
    · cases hatom <;> simp
    · simp
  | quoted => simp

/-! ### Containers -/

/-- A text that reads as a container is the closed value at its front. -/
theorem closed_of_read {t : Text} {v : Value} (h : read t = .ok v)
    (hv : ∀ e, ¬ Bare v e) : ∃ g u r, t = g ++ (u ++ r) ∧ Gap g ∧ Closed v u := by
  obtain ⟨n, k, hvalue, -⟩ := value_of_read h
  obtain ⟨g, s, k, rfl, -, hg, hfront⟩ := valueSound t v n hvalue
  cases hfront with
  | @closed u p r hu => exact ⟨g, u, p ++ r, rfl, hg, hu⟩
  | @bare e b r he => exact absurd he (hv e)

/-- The two readings of an object agree. -/
theorem objectAgrees_of_read {t : Text} {fs : Record Value} (h : read t = .ok (.object fs)) :
    ∃ entries, ObjectAgrees t fs entries := by
  obtain ⟨g, u, r, rfl, hg, hu⟩ := closed_of_read h fun e he => he.not_container.2 fs rfl
  cases hu with
  | @object C entries body hC hbody =>
    have hbody : Listed '\x7d' (FieldText Closed) entries body := hbody.mono fun _ _ hx => hx.mono hC
    have hreads : ∀ v u, Closed v u → ReadsClosed v u := fun _ _ hu => hu.reads
    refine ⟨entries, ⟨?_, ?_, ?_, ?_, rfl⟩⟩
    · exact rawContainer_append isCloser_brace (fun _ _ hx => hx.readAs_field hreads) hg solid_brace
        hbody r
    · exact rawContainer_append isCloser_brace (fun _ _ hx => hx.readAs_sourced hreads) hg
        solid_brace hbody r
    · exact rawContainer_append isCloser_brace (fun _ _ hx => hx.readAs_rawField hreads) hg
        solid_brace hbody r
    · intro entry hentry
      obtain ⟨x, hx⟩ := hbody.exists_text entry hentry
      exact hx.agrees

/-- The two readings of an array agree. -/
theorem arrayAgrees_of_read {t : Text} {vs : List Value} (h : read t = .ok (.array vs)) :
    ∃ items, ArrayAgrees t vs items := by
  obtain ⟨g, u, r, rfl, hg, hu⟩ := closed_of_read h fun e he => he.not_container.1 vs rfl
  cases hu with
  | @array C items body hC hbody =>
    have hbody : Listed ']' (ItemText Closed) items body := hbody.mono fun _ _ hx => hx.mono hC
    have hreads : ∀ v u, Closed v u → ReadsClosed v u := fun _ _ hu => hu.reads
    refine ⟨items, ⟨?_, ?_, ?_, rfl⟩⟩
    · exact rawContainer_append isCloser_bracket (fun _ _ hx => hx.readAs_item hreads) hg
        solid_bracket hbody r
    · exact rawContainer_append isCloser_bracket (fun _ _ hx => hx.readAs_rawItem hreads) hg
        solid_bracket hbody r
    · intro a ha
      obtain ⟨x, hx⟩ := hbody.exists_text a ha
      exact hx.agrees

/-- **The two readings agree.**  The lenient reading of a container finds what the strict one finds,
wherever the strict one succeeds. -/
theorem readings_agree (t : Text) :
    (∀ fs, read t = .ok (.object fs) → ∃ entries, ObjectAgrees t fs entries) ∧
      ∀ vs, read t = .ok (.array vs) → ∃ items, ArrayAgrees t vs items :=
  ⟨fun _ => objectAgrees_of_read, fun _ => arrayAgrees_of_read⟩

/-- An object with an expression behind a string, comments that hold commas, a spread, a key that
stands alone, a key that is written twice, and a trailing comma; and an array like it. -/
theorem readings_agree_mixed :
    (∃ entries, ObjectAgrees
      " \x7b a: 'x' + y /* , */, ...r, b, \"a\": [1, ...z, 's' // , \n] // ] \n, \x7d ; "
      [("a", .array [.int 1, .expr "...z", .str "s"]), ("...r", .expr "r"), ("b", .expr "b")]
      entries) ∧
    ∃ items, ArrayAgrees "[ f(\"]\", 2), '\\u0041' /* ' */ , -0.5 ,...[3], ]"
      [.expr "f(\"]\", 2)", .str "A", .float (.finite true 4503599627370496 (-53)),
        .expr "...[3]"]
      items :=
  ⟨(readings_agree _).1 _ (by decide +kernel), (readings_agree _).2 _ (by decide +kernel)⟩

end TailwindUpgrade.Literal
