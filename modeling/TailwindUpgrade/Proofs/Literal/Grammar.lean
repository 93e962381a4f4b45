/-
TailwindUpgrade/Proofs/Literal/Grammar.lean

Literals as a language.  A `Closed` value is written between marks of its own: a string in its
quotes, an array or an object in its brackets.  A `Bare` value is an expression.  Where a value
stands in a container it has more text to it (`PlacedValue`): layout behind a closed value, blanks
behind a bare one, all of it up to the mark that ends the entry.  The lenient reading takes that
text for the source of the value, trimmed.

The rules for entries speak of values of any language `C`, so that only the three rules of `Closed`
are recursive.  They take `C` to be a part of `Closed` itself.
-/
import TailwindUpgrade.Proofs.Literal.Listed

namespace TailwindUpgrade.Literal

/-- The name of the field that an entry makes. -/
def Head.name : Head → Text
  | .spread source => dots ++ source
  | .shorthand key => key
  | .keyed key => key

/-- An entry of an object: its heading, its value, and the source of its value. -/
structure Entry where
  head : Head
  value : Value
  source : Text

/-- The field that an entry makes. -/
def Entry.field (entry : Entry) : Text × Value := (entry.head.name, entry.value)

/-- An expression that is a value.  An integer of too many digits is none.  One that begins with a
string goes on after it with something that ends no value. -/
inductive Bare : Value → Text → Prop
  | word {v : Value} {e : Text} :
      SelfContained e → (∀ c ∈ e.head?, isQuote c = false ∧ c ≠ .char '\x7b' ∧ c ≠ .char '[') →
      expressionValue e = .ok v → Bare v e
  | quoted {q c : CodePoint} {t u g r : Text} :
      isQuote q = true → Quoted q t u → Gap g → Solid (c :: r) → endsValue (some c) = false →
      SelfContained (q :: (u ++ q :: (g ++ c :: r))) →
      Bare (.expr (q :: (u ++ q :: (g ++ c :: r)))) (q :: (u ++ q :: (g ++ c :: r)))

/-- A value in a container, with its source: the text is all that stands before the mark behind
it. -/
inductive PlacedValue (C : Value → Text → Prop) : Value → Text → Text → Prop
  | closed {v : Value} {u g : Text} :
      C v u → Gap g → PlacedValue C v (Text.stripEnd (u ++ g)) (u ++ g)
  | bare {v : Value} {e b : Text} : Bare v e → Trailing e b → PlacedValue C v e (e ++ b)

/-- An entry of an array, as its value and its source. -/
inductive ItemText (C : Value → Text → Prop) : Value × Text → Text → Prop
  | value {v : Value} {e x : Text} :
      PlacedValue C v e x → dots.isPrefixOf e = false → ItemText C (v, e) x
  | spread {g e b : Text} :
      Gap g → SelfContained e → Trailing e b →
      ItemText C (.expr (dots ++ e), dots ++ e) (dots ++ (g ++ (e ++ b)))

/-- An entry of an object. -/
inductive FieldText (C : Value → Text → Prop) : Entry → Text → Prop
  | keyed {k u g g' e x : Text} {v : Value} :
      Key k u → Gap g → Gap g' → PlacedValue C v e x →
      FieldText C ⟨.keyed k, v, e⟩ (u ++ (g ++ .char ':' :: (g' ++ x)))
  | shorthand {k u g : Text} :
      Key k u → Gap g → FieldText C ⟨.shorthand k, .expr k, k⟩ (u ++ g)
  | spread {g e b : Text} :
      Gap g → SelfContained e → Trailing e b →
      FieldText C ⟨.spread e, .expr e, e⟩ (dots ++ (g ++ (e ++ b)))

theorem PlacedValue.mono {C D : Value → Text → Prop} (hCD : ∀ v u, C v u → D v u) {v : Value}
    {e x : Text} (h : PlacedValue C v e x) : PlacedValue D v e x := by
  cases h with
  | closed hu hg => exact .closed (hCD _ _ hu) hg
  | bare he hb => exact .bare he hb

theorem ItemText.mono {C D : Value → Text → Prop} (hCD : ∀ v u, C v u → D v u) {a : Value × Text}
    {x : Text} (h : ItemText C a x) : ItemText D a x := by
  cases h with
  | value hx hdots => exact .value (hx.mono hCD) hdots
  | spread hg he hb => exact .spread hg he hb

theorem FieldText.mono {C D : Value → Text → Prop} (hCD : ∀ v u, C v u → D v u) {entry : Entry}
    {x : Text} (h : FieldText C entry x) : FieldText D entry x := by
  cases h with
  | keyed hk hg hg' hx => exact .keyed hk hg hg' (hx.mono hCD)
  | shorthand hk hg => exact .shorthand hk hg
  | spread hg he hb => exact .spread hg he hb

/-- A value between marks of its own. -/
inductive Closed : Value → Text → Prop
  | string {q : CodePoint} {t u : Text} :
      isQuote q = true → Quoted q t u → Closed (.str t) (q :: (u ++ [q]))
  | array {C : Value → Text → Prop} {items : List (Value × Text)} {body : Text} :
      (∀ v u, C v u → Closed v u) → Listed ']' (ItemText C) items body →
      Closed (.array (items.map Prod.fst)) (.char '[' :: body)
  | object {C : Value → Text → Prop} {entries : List Entry} {body : Text} :
      (∀ v u, C v u → Closed v u) → Listed '\x7d' (FieldText C) entries body →
      Closed (.object (Record.ofList (entries.map Entry.field))) (.char '\x7b' :: body)

/-! ### Values after layout -/

/-- What a value begins with decides what it is read as. -/
theorem value_of_peek {s : Text} {found : CodePoint} {n : Nat} (h : peek s = .ok (some found, n)) :
    value s =
      if found = '\x7b' then
        ((fields (s.drop (n + 1))).map fun entries => .object (Record.ofList entries)).further
          (n + 1)
      else if found = '[' then ((items (s.drop (n + 1))).map .array).further (n + 1)
      else if isQuote found then (quotedValue (s.drop n)).further n
      else (bare (s.drop n)).further n := by
  cases s with
  | nil =>
    rw [peek_solid solid_nil] at h
    cases h
  | cons c s =>
    rw [value, h]
    rfl

theorem value_gap {g s : Text} (hg : Gap g) (hs : Solid s) (hne : s ≠ []) :
    value (g ++ s) = (value s).further g.length := by
  cases s with
  | nil => exact absurd rfl hne
  | cons c s =>
    have hdrop : (g ++ c :: s).drop (g.length + 1) = s := by
      rw [← List.drop_drop, List.drop_left]
      rfl
    rw [value_of_peek (peek_append hg hs), value_of_peek (peek_solid hs)]
    simp only [hdrop, List.drop_left, List.drop_zero, List.drop_succ_cons, Nat.zero_add]
    split_ifs
    · rw [Reading.further_further]
    · rw [Reading.further_further]
    · rw [Reading.further_zero]
    · rw [Reading.further_zero]

/-- A bare value is read where its expression is. -/
theorem value_bare {v : Value} {e s : Text} {n : Nat} (h : Bare v e)
    (hs : ∀ c ∈ s.head?, c ≠ .char '/' ∧ c ≠ .char '*')
    (hread : expression (e ++ s) = .ok (e, n)) : value (e ++ s) = .ok (v, n) := by
  cases h with
  | word he hhead hvalue =>
    have hsolid := he.solid.append he.ne_nil hs
    cases e with
    | nil => exact absurd rfl he.ne_nil
    | cons c e =>
      obtain ⟨hquote, hbrace, hbracket⟩ := hhead c rfl
      rw [value_of_peek (peek_solid hsolid), if_neg hbrace, if_neg hbracket, if_neg (by simp [hquote]),
        List.drop_zero, Reading.further_zero, bare, hread]
      simp only [hvalue]
  | @quoted q c t u g r hq hu hg hc hends he =>
    have hsolid := he.solid.append he.ne_nil hs
    have hcsolid : Solid (c :: r ++ s) := hc.append (by simp) hs
    have hbrackets : q ≠ .char '\x7b' ∧ q ≠ .char '[' := by
      rcases isQuote_cases hq with rfl | rfl | rfl <;> decide
    have hstring : string (q :: (u ++ q :: (g ++ c :: r)) ++ s) = .ok (t, u.length + 2) := by
      rw [List.cons_append, List.append_assoc, List.cons_append]
      exact string_append hq hu _
    have hdrop : (q :: (u ++ q :: (g ++ c :: r)) ++ s).drop (u.length + 2) = g ++ (c :: r ++ s) := by
      rw [List.cons_append, List.append_assoc, List.cons_append, List.drop_succ_cons,
        ← List.drop_drop, List.drop_left, List.drop_succ_cons, List.drop_zero, List.append_assoc]
    have hfound : (c :: r ++ s).head? = some c := rfl
    rw [value_of_peek (peek_solid hsolid), if_neg hbrackets.1, if_neg hbrackets.2, if_pos hq,
      List.drop_zero, Reading.further_zero, quotedValue, hstring]
    simp only [hdrop, peek_append hg hcsolid, Reading.further_ok, hfound, hends,
      Bool.false_eq_true, if_false, hread]
    rfl

end TailwindUpgrade.Literal
