/-
TailwindUpgrade/Proofs/Literal/Progress.lean

What readers do to a place in a text.  A place that lies in the text moves on, and does not leave
it; a fault lies between the place where its reader was started and the end of the text
(`Cursor.GetsTo`).  This is what `Within` says of the text ahead of a place.  So the loops over
entries and over expressions end from every place.

Strings are read where a value, a key or a part of an expression begins with a quote, and nowhere
else.  `keyUsing` and `valueUsing` are the first two with another reader of strings in its place, as
`expressionPass` is the third; all that this reader has to be is right at quotes.

Main result: from every place the readers make progress and stay in the text, their loops end, and
strings are looked for at quotes only (`readers_progress`).
-/
import TailwindUpgrade.Proofs.Literal.Loop

namespace TailwindUpgrade.Literal

variable {α : Type} {c : Cursor} {least : Nat} {str : Text → Reading Text}

/-! ### Places -/

/-- A reader that is started from a place gets at least `least` characters further and not out of
the text, and reports a fault nowhere but in what was ahead of the place. -/
structure Cursor.GetsTo (c : Cursor) (least : Nat) (read : Text → Reading α) : Prop where
  text : ∀ a c', c.run read = .ok (a, c') → c'.text = c.text
  least : ∀ a c', c.run read = .ok (a, c') → c.position + least ≤ c'.position
  most : ∀ a c', c.run read = .ok (a, c') → c'.position ≤ c.text.length
  fault : ∀ f, c.run read = .error f → c.position ≤ f.offset ∧ f.offset ≤ c.text.length

/-- A place in a text, and a reading of what is ahead of it that is within it. -/
theorem getsTo_of_within {read : Text → Reading α} (hc : c.position ≤ c.text.length)
    (h : Within least c.ahead (read c.ahead)) : c.GetsTo least read := by
  have hlength : c.ahead.length = c.text.length - c.position := List.length_drop
  have hends : ∀ a c', c.run read = .ok (a, c') → c'.text = c.text ∧
      c.position + least ≤ c'.position ∧ c'.position ≤ c.text.length := by
    intro a c' hrun
    obtain ⟨n, hread, rfl⟩ := Cursor.run_eq_ok_iff.1 hrun
    obtain ⟨hleast, hmost⟩ := h.taken hread
    refine ⟨rfl, ?_, ?_⟩
    · show c.position + least ≤ c.position + n
      omega
    · show c.position + n ≤ c.text.length
      omega
  refine ⟨fun a c' hrun => (hends a c' hrun).1, fun a c' hrun => (hends a c' hrun).2.1,
    fun a c' hrun => (hends a c' hrun).2.2, ?_⟩
  intro f hrun
  rcases hread : read c.ahead with g | ⟨a, n⟩
  · rw [Cursor.run_of_error hread] at hrun
    obtain rfl : g.further c.position = f := Except.error.inj hrun
    have hoffset := h.fault hread
    show c.position ≤ c.position + g.offset ∧ c.position + g.offset ≤ c.text.length
    omega
  · rw [Cursor.run_of_ok hread] at hrun
    cases hrun

/-- The readers stay in the text and do not go back; and those of what a literal is made of take a
character at least. -/
structure ReadersAdvance (c : Cursor) : Prop where
  layout : c.GetsTo 0 layout
  peek : c.GetsTo 0 peek
  expect : ∀ mark, c.GetsTo 0 (expect mark)
  endOfEntry : ∀ closer, c.GetsTo 0 (endOfEntry closer)
  finish : c.GetsTo 0 finish
  value : c.GetsTo 1 value
  object : c.GetsTo 1 object
  array : c.GetsTo 1 array
  key : c.GetsTo 1 key
  string : c.GetsTo 1 string
  expression : c.GetsTo 1 expression

theorem readersAdvance (hc : c.position ≤ c.text.length) : ReadersAdvance c where
  layout := getsTo_of_within hc (layout_within _)
  peek := getsTo_of_within hc (peek_within _)
  expect mark := getsTo_of_within hc ((expect_within mark _).mono (Nat.zero_le 1))
  endOfEntry closer := getsTo_of_within hc (endOfEntry_within closer _)
  finish := getsTo_of_within hc (finish_within _)
  value := getsTo_of_within hc (value_within _)
  object := getsTo_of_within hc (object_within _)
  array := getsTo_of_within hc (array_within _)
  key := getsTo_of_within hc (key_within _)
  string := getsTo_of_within hc (string_within _)
  expression := getsTo_of_within hc (expression_within _)

/-! ### Loops -/

/-- The loops over the entries of objects and arrays, read strictly and leniently, and the loop over
an expression end, where the readers do. -/
structure LoopsEnd (c : Cursor) : Prop where
  fields : ∃ as, EndsWith (entryPass '\x7d' field) ([], c) (as, c.after fields)
  items : ∃ as, EndsWith (entryPass ']' item) ([], c) (as, c.after items)
  rawFields : ∃ r, EndsWith (entryPass '\x7d' rawField) ([], c)
    ((rawEntries '\x7d' rawField c.ahead).list, r)
  rawItems : ∃ r, EndsWith (entryPass ']' rawItem) ([], c)
    ((rawEntries ']' rawItem c.ahead).list, r)
  expression : ∀ closers, EndsWith (expressionPass string) (closers, c)
    (c.after (expressionEnd closers))

theorem readsQuoted_string : ReadsQuoted string := fun _ _ _ => rfl

theorem loopsEnd (c : Cursor) : LoopsEnd c where
  fields := by
    have hends := endsWith_entries isCloser_brace
      (fun s => field_within fun x _ => value_within x) [] c
    rw [funext fields_eq]
    exact ⟨_, hends⟩
  items := by
    have hends := endsWith_entries isCloser_bracket
      (fun s => item_within fun x _ => value_within x) [] c
    rw [funext items_eq]
    exact ⟨_, hends⟩
  rawFields := ⟨_, endsWith_entries isCloser_brace rawField_within [] c⟩
  rawItems := ⟨_, endsWith_entries isCloser_bracket rawItem_within [] c⟩
  expression closers := endsWith_expression readsQuoted_string closers c

/-! ### Strings -/

/-- Reads a key, and a string by `str`. -/
def keyUsing (str : Text → Reading Text) (s : Text) : Reading Text :=
  match peek s with
  | .error f => .error f
  | .ok (found, n) =>
    if found.any isQuote then (str (s.drop n)).further n
    else
      match bareKey? (s.drop n) with
      | some name => .ok (name, n + name.length)
      | none => .error ⟨.expectedKey found, n⟩

/-- Reads a string by `str`, if it is a value; else the expression that begins with it. -/
def quotedValueUsing (str : Text → Reading Text) (s : Text) : Reading Value :=
  match str s with
  | .error f => .error f
  | .ok (text, n) =>
    match (peek (s.drop n)).further n with
    | .error f => .error f
    | .ok (found, k) => if endsValue found then .ok (.str text, k) else (expression s).map .expr

/-- Reads a value, which is an object, an array, a string, or an expression, and a string by
`str`. -/
def valueUsing (str : Text → Reading Text) (s : Text) : Reading Value :=
  match peek s with
  | .error f => .error f
  | .ok (none, n) => .error ⟨.unexpectedEnd, n⟩
  | .ok (some found, n) =>
    if found = '\x7b' then (object (s.drop n)).further n
    else if found = '[' then (array (s.drop n)).further n
    else if isQuote found then (quotedValueUsing str (s.drop n)).further n
    else (bare (s.drop n)).further n

/-- Strings are read where a quote was found: every reader of strings that is right there will do,
for keys, for values, and in expressions. -/
structure StringsAtQuotes (str : Text → Reading Text) : Prop where
  key : keyUsing str = key
  value : valueUsing str = value
  expression : ∀ closers c, EndsWith (expressionPass str) (closers, c)
    (c.after (expressionEnd closers))

theorem exists_cons_of_peek {s : Text} {found : CodePoint} {n : Nat}
    (h : peek s = .ok (some found, n)) : ∃ r, s.drop n = found :: r := by
  obtain ⟨g, r, rfl, rfl, hhead, -⟩ := gap_of_peek h
  cases r with
  | nil => cases hhead
  | cons d r =>
    obtain rfl : found = d := Option.some.inj hhead
    exact ⟨r, List.drop_left⟩

theorem keyUsing_eq (hstr : ReadsQuoted str) (s : Text) : keyUsing str s = key s := by
  show keyUsing str s = keyUsing string s
  rw [keyUsing, keyUsing]
  rcases hpeek : peek s with f | ⟨found, n⟩
  · rfl
  by_cases hquote : found.any isQuote = true
  · obtain ⟨q, rfl, hq⟩ := (Option.any_eq_true isQuote found).1 hquote
    obtain ⟨r, hr⟩ := exists_cons_of_peek hpeek
    simp only [if_pos hquote, hr, hstr q r hq]
  · simp only [if_neg hquote]

theorem quotedValueUsing_eq (hstr : ReadsQuoted str) {q : CodePoint} (hq : isQuote q = true)
    (r : Text) : quotedValueUsing str (q :: r) = quotedValue (q :: r) := by
  show quotedValueUsing str (q :: r) = quotedValueUsing string (q :: r)
  rw [quotedValueUsing, quotedValueUsing, hstr q r hq]

theorem object_brace (s : Text) :
    object (.char '\x7b' :: s) =
      ((fields s).map fun entries => .object (Record.ofList entries)).further 1 := by
  have hopen : expect '\x7b' (.char '\x7b' :: s) = .ok ((), 1) := expect_append .nil (solid_brace s)
  rw [object, hopen]
  rfl

theorem array_bracket (s : Text) :
    array (.char '[' :: s) = ((items s).map .array).further 1 := by
  have hopen : expect '[' (.char '[' :: s) = .ok ((), 1) := expect_append .nil (solid_bracket s)
  rw [array, hopen]
  rfl

theorem valueUsing_eq (hstr : ReadsQuoted str) (s : Text) : valueUsing str s = value s := by
  rw [valueUsing]
  rcases hpeek : peek s with f | ⟨found, n⟩
  · cases s with
    | nil =>
      rw [peek_solid solid_nil] at hpeek
      cases hpeek
    | cons d s => rw [value, hpeek]
  cases found with
  | none =>
    cases s with
    | nil =>
      obtain ⟨-, rfl⟩ := Prod.mk.inj (Except.ok.inj (hpeek.symm.trans (peek_solid solid_nil)))
      rw [value]
    | cons d s => rw [value, hpeek]
  | some found =>
    obtain ⟨r, hr⟩ := exists_cons_of_peek hpeek
    have hbehind : s.drop (n + 1) = r := by
      rw [← List.drop_drop, hr]
      rfl
    rw [value_of_peek hpeek, hbehind]
    dsimp only
    by_cases hbrace : found = '\x7b'
    · subst hbrace
      rw [if_pos rfl, if_pos rfl, hr, object_brace, Reading.further_further]
    by_cases hbracket : found = '['
    · subst hbracket
      rw [if_neg hbrace, if_neg hbrace, if_pos rfl, if_pos rfl, hr, array_bracket,
        Reading.further_further]
    rw [if_neg hbrace, if_neg hbrace, if_neg hbracket, if_neg hbracket]
    by_cases hquote : isQuote found = true
    · rw [if_pos hquote, if_pos hquote, hr, quotedValueUsing_eq hstr hquote]
    · rw [if_neg hquote, if_neg hquote]

theorem stringsAtQuotes (hstr : ReadsQuoted str) : StringsAtQuotes str where
  key := funext (keyUsing_eq hstr)
  value := funext (valueUsing_eq hstr)
  expression closers c := endsWith_expression hstr closers c

/-- **Readers make progress.**  From every place in a text each reader ends at a place in the same
text, not before the one where it began, and behind it if it reads a value, a container, a key, a
string or an expression; or it reports a fault at a place between the one where it began and the end
of the text.  So the loops over entries and over expressions end.  And a string is looked for at a
quote only: what the reader of strings does anywhere else does not matter. -/
theorem readers_progress (c : Cursor) (hc : c.position ≤ c.text.length) :
    ReadersAdvance c ∧ LoopsEnd c ∧ ∀ str, ReadsQuoted str → StringsAtQuotes str :=
  ⟨readersAdvance hc, loopsEnd c, fun _ hstr => stringsAtQuotes hstr⟩

/-- A string that ends with a backslash, and the text with it: the fault is at its quote.  Nothing
is lost with a reader that finds no string where no quote comes next. -/
theorem readers_progress_backslash :
    let c : Cursor := ⟨"[1, 'b\\", 4⟩
    let str : Text → Reading Text := fun s =>
      if s.head?.any isQuote then string s else .error ⟨.noString, 0⟩
    c.position ≤ c.text.length ∧ c.run value = .error ⟨.unterminatedString, 4⟩ ∧
      ReadersAdvance c ∧ LoopsEnd c ∧ StringsAtQuotes str := by
  intro c str
  have hc : c.position ≤ c.text.length := by decide
  have hfault : value c.ahead = .error ⟨.unterminatedString, 0⟩ := by decide +kernel
  have hstr : ReadsQuoted str := by
    intro q s hq
    exact if_pos hq
  obtain ⟨hreaders, hloops, hstrings⟩ := readers_progress c hc
  exact ⟨hc, Cursor.run_of_error hfault, hreaders, hloops, hstrings str hstr⟩

end TailwindUpgrade.Literal
