/-
TailwindUpgrade/Proofs/Literal/Loop.lean

Readers as loops.  The readers of containers and of expressions recurse on what is left of a text.
Here they are taken for loops that move a place through the text, with nothing said about why they
should end: one pass over an entry (`entryPass`), one over a part of an expression
(`expressionPass`).  Such a loop may well run forever; `EndsWith` says that it does not, and what it
comes to.

A loop ends if each of its passes gets on (`endsWith_of_getsOn`).  A pass over an entry does, since
an entry is a character at least.  Where the closing bracket ends the entry it is left for the next
pass, which ends the loop.  A pass over an expression takes a string, the layout that begins with a
comment, or one character.

Main results: the loops end as the readers do (`endsWith_entries`, `endsWith_expression`).  The loop
over an expression does so with any reader of strings that does what it should wherever a quote
comes next, whatever it may do elsewhere (`ReadsQuoted`).
-/
import Mathlib.Computability.StateTransition
import TailwindUpgrade.Literal.Cursor
import TailwindUpgrade.Proofs.Literal.Range

namespace TailwindUpgrade.Literal

variable {α σ β : Type} {c : Cursor} {closer : CodePoint} {entry : Text → Reading α}
  {str : Text → Reading Text}

/-! ### Loops -/

/-- A loop as steps from state to state: a pass leads to the next state, or to a result, which is
the last. -/
def loopStep (pass : σ → σ ⊕ β) : σ ⊕ β → Option (σ ⊕ β) :=
  Sum.elim (fun s => some (pass s)) fun _ => none

/-- The loop that makes one pass after another from the state `s` ends, with the result `b`. -/
def EndsWith (pass : σ → σ ⊕ β) (s : σ) (b : β) : Prop :=
  Sum.inr b ∈ StateTransition.eval (loopStep pass) (Sum.inl s)

theorem endsWith_last {pass : σ → σ ⊕ β} {s : σ} {b : β} (h : pass s = .inr b) :
    EndsWith pass s b := by
  apply StateTransition.mem_eval.2
  refine ⟨Relation.ReflTransGen.single ?_, rfl⟩
  show some (pass s) = some (Sum.inr b)
  rw [h]

theorem endsWith_next {pass : σ → σ ⊕ β} {s s' : σ} {b : β} (h : pass s = .inl s')
    (hrest : EndsWith pass s' b) : EndsWith pass s b := by
  obtain ⟨hreaches, hlast⟩ := StateTransition.mem_eval.1 hrest
  apply StateTransition.mem_eval.2
  refine ⟨Relation.ReflTransGen.head ?_ hreaches, hlast⟩
  show some (pass s) = some (Sum.inl s')
  rw [h]

/-- A pass of a loop that moves a place through a text and gets on: less of the text is ahead, and
what the loop is to come to stays the same; or the loop has come to it. -/
def GetsOn (pass : σ × Cursor → (σ × Cursor) ⊕ β) (result : σ × Cursor → β) (s : σ × Cursor) :
    Prop :=
  match pass s with
  | .inl s' => s'.2.ahead.length < s.2.ahead.length ∧ result s' = result s
  | .inr b => b = result s

section

variable {pass : σ × Cursor → (σ × Cursor) ⊕ β} {result : σ × Cursor → β} {s s' : σ × Cursor}
  {b : β}

theorem getsOn_next (h : pass s = .inl s') (hahead : s'.2.ahead.length < s.2.ahead.length)
    (hresult : result s' = result s) : GetsOn pass result s := by
  rw [GetsOn, h]
  exact ⟨hahead, hresult⟩

theorem getsOn_last (h : pass s = .inr b) (hresult : b = result s) : GetsOn pass result s := by
  rw [GetsOn, h]
  exact hresult

/-- A loop all of whose passes get on ends. -/
theorem endsWith_of_getsOn (h : ∀ s, GetsOn pass result s) (s : σ × Cursor) :
    EndsWith pass s (result s) := by
  induction hlen : s.2.ahead.length using Nat.strongRecOn generalizing s with
  | ind len ih =>
    have hs := h s
    rw [GetsOn] at hs
    rcases hpass : pass s with s' | b
    · rw [hpass] at hs
      have hrest := ih s'.2.ahead.length (hlen ▸ hs.1) s' rfl
      rw [hs.2] at hrest
      exact endsWith_next hpass hrest
    · rw [hpass] at hs
      obtain rfl : b = result s := hs
      exact endsWith_last hpass

end

/-! ### Passes over entries -/

/-- The place that lies `n` characters further on. -/
def Cursor.forward (c : Cursor) (n : Nat) : Cursor := ⟨c.text, c.position + n⟩

/-- One pass over the entries of a container, from a place with the entries that were read before
it.  The closing bracket ends the loop, and so does a fault; else there is one entry more, and the
place is behind what ends it. -/
def entryPass (closer : CodePoint) (entry : Text → Reading α) :
    List α × Cursor → (List α × Cursor) ⊕ (List α × Except Fault Cursor)
  | (as, c) =>
    match c.run peek with
    | .error f => .inr (as, .error f)
    | .ok (found, c) =>
      if found = some closer then .inr (as, .ok (c.forward 1))
      else
        match c.run entry with
        | .error f => .inr (as, .error f)
        | .ok (a, c) =>
          match c.run (endOfEntry closer) with
          | .error f => .inr (as ++ [a], .error f)
          | .ok ((), c) => .inl (as ++ [a], c)

/-- Where a reader ends from a place, or its fault. -/
def Cursor.after (c : Cursor) (read : Text → Reading α) : Except Fault Cursor :=
  (c.run read).map Prod.snd

theorem Cursor.ahead_forward (c : Cursor) (n : Nat) : (c.forward n).ahead = c.ahead.drop n := by
  rw [Cursor.ahead, Cursor.ahead, Cursor.forward, List.drop_drop]

theorem Cursor.forward_forward (c : Cursor) (n k : Nat) :
    (c.forward n).forward k = c.forward (n + k) := by
  rw [Cursor.forward, Cursor.forward, Cursor.forward, Nat.add_assoc]

theorem Cursor.run_of_ok {read : Text → Reading α} {a : α} {n : Nat}
    (h : read c.ahead = .ok (a, n)) : c.run read = .ok (a, c.forward n) := by
  rw [Cursor.run, h]
  rfl

theorem Cursor.run_of_error {read : Text → Reading α} {f : Fault}
    (h : read c.ahead = .error f) : c.run read = .error (f.further c.position) := by
  rw [Cursor.run, h]

theorem Cursor.after_of_ok {read : Text → Reading α} {a : α} {n : Nat}
    (h : read c.ahead = .ok (a, n)) : c.after read = .ok (c.forward n) := by
  rw [Cursor.after, Cursor.run_of_ok h]
  rfl

theorem Cursor.after_of_error {read : Text → Reading α} {f : Fault}
    (h : read c.ahead = .error f) : c.after read = .error (f.further c.position) := by
  rw [Cursor.after, Cursor.run_of_error h]
  rfl

/-- Running a reader from further on, with an end that is counted from here. -/
theorem Cursor.run_forward_of_ok {read : Text → Reading α} {a : α} {n k : Nat}
    (h : (read (c.ahead.drop n)).further n = .ok (a, k)) :
    (c.forward n).run read = .ok (a, c.forward k) := by
  obtain ⟨i, hi, rfl⟩ := Reading.further_eq_ok h
  rw [← Cursor.ahead_forward] at hi
  rw [Cursor.run_of_ok hi, Cursor.forward_forward]

theorem Cursor.run_forward_of_error {read : Text → Reading α} {f : Fault} {n : Nat}
    (h : (read (c.ahead.drop n)).further n = .error f) :
    (c.forward n).run read = .error (f.further c.position) := by
  rcases hread : read (c.ahead.drop n) with g | ⟨a, k⟩
  · rw [hread] at h
    obtain rfl := Except.error.inj h
    rw [← Cursor.ahead_forward] at hread
    rw [Cursor.run_of_error hread, Cursor.forward, Fault.further, Fault.further, Fault.further,
      Nat.add_assoc]
  · rw [hread] at h
    cases h

/-- A reader that ends where another one does that is started further on. -/
theorem Cursor.after_of_further {read : Text → Reading α} {next : Text → Reading β} {g : β → α}
    {n : Nat} (h : read c.ahead = ((next (c.ahead.drop n)).map g).further n) :
    c.after read = (c.forward n).after next := by
  rw [Cursor.after, Cursor.after, Cursor.run, Cursor.run, h, Cursor.ahead_forward]
  rcases next (c.ahead.drop n) with f | ⟨b, k⟩
  · simp only [Reading.map, Reading.further, Fault.further, Cursor.forward, Except.map,
      Nat.add_assoc]
  · simp only [Reading.map, Reading.further, Cursor.forward, Except.map, Nat.add_assoc]

/-- The two readings of entries, strict and lenient, are one also at the end of a text, where no
entry can be read. -/
theorem readings_cases (closer : CodePoint) (hentry : ∀ s, Within 1 s (entry s)) (s : Text) :
    (delimited closer entry s, rawEntries closer entry s) =
      match peek s with
      | .error f => (.error f, .stopped f)
      | .ok (found, n) =>
        if found = some closer then (.ok ([], n + 1), ⟨[], none⟩)
        else
          match (entry (s.drop n)).further n with
          | .error f => (.error f, .stopped f)
          | .ok (a, k) =>
            match (separator closer (s.drop k)).further k with
            | .error f => (.error f, ⟨[a], some f⟩)
            | .ok (false, m) => (.ok ([a], m + 1), ⟨[a], none⟩)
            | .ok (true, m) =>
              (((delimited closer entry (s.drop (m + 1))).map (a :: ·)).further (m + 1),
                .cons a (m + 1) (rawEntries closer entry (s.drop (m + 1)))) := by
  cases s with
  | nil =>
    rw [delimited, rawEntries, peek_solid solid_nil]
    rcases hread : entry [] with f | ⟨a, n⟩
    · simp [hread]
    · have htaken := (hentry []).taken hread
      rw [List.length_nil] at htaken
      omega
  | cons d s =>
    rw [delimited_of_ne_nil (List.cons_ne_nil d s), rawEntries_of_ne_nil (List.cons_ne_nil d s)]
    rcases peek (d :: s) with f | ⟨found, n⟩
    · rfl
    dsimp only
    split
    · rfl
    rcases (entry ((d :: s).drop n)).further n with f | ⟨a, k⟩
    · rfl
    dsimp only
    rcases (separator closer ((d :: s).drop k)).further k with f | ⟨comma, m⟩
    · rfl
    · cases comma <;> rfl

/-- The mark that ends an entry: a comma is taken, and the closing bracket is left. -/
theorem endOfEntry_of_separator {s : Text} {n : Nat} {comma : Bool}
    (h : separator closer s = .ok (comma, n)) :
    endOfEntry closer s = .ok ((), if comma then n + 1 else n) := by
  rw [endOfEntry, h]

theorem endOfEntry_of_error {s : Text} {f : Fault} {n : Nat}
    (h : (separator closer s).further n = .error f) : (endOfEntry closer s).further n = .error f := by
  rcases hseparator : separator closer s with g | ⟨comma, k⟩
  · rw [hseparator] at h
    obtain rfl : g.further n = f := Except.error.inj h
    rw [endOfEntry, hseparator]
    rfl
  · rw [hseparator] at h
    cases h

/-- The closing bracket that was left behind an entry is found at once. -/
theorem peek_of_separator {s : Text} {n : Nat} (hcloser : isCloser closer = true)
    (h : separator closer s = .ok (false, n)) : peek (s.drop n) = .ok (some closer, 0) := by
  obtain ⟨g, r, rfl, rfl, -⟩ := gap_of_separator h
  rw [List.drop_left]
  exact peek_solid (stops_endMark hcloser false r).solid

/-- A pass that reads an entry and the mark behind it. -/
theorem entryPass_entry {found : Option CodePoint} {a : α} {n k m : Nat} {comma : Bool}
    (hpeek : peek c.ahead = .ok (found, n)) (hfound : found ≠ some closer)
    (hread : (entry (c.ahead.drop n)).further n = .ok (a, k))
    (hmark : (separator closer (c.ahead.drop k)).further k = .ok (comma, m)) (as : List α) :
    entryPass closer entry (as, c) =
      .inl (as ++ [a], c.forward (if comma then m + 1 else m)) := by
  obtain ⟨i, hi, rfl⟩ := Reading.further_eq_ok hmark
  have hend : (endOfEntry closer (c.ahead.drop k)).further k =
      .ok ((), if comma then k + i + 1 else k + i) := by
    rw [endOfEntry_of_separator hi, Reading.further_ok]
    cases comma <;> rfl
  simp only [entryPass, Cursor.run_of_ok hpeek, if_neg hfound, Cursor.run_forward_of_ok hread,
    Cursor.run_forward_of_ok hend]

/-- A pass that finds the closing bracket. -/
theorem entryPass_closed {n : Nat} (hpeek : peek c.ahead = .ok (some closer, n)) (as : List α) :
    entryPass closer entry (as, c) = .inr (as, .ok (c.forward (n + 1))) := by
  simp only [entryPass, Cursor.run_of_ok hpeek, if_true, Cursor.forward_forward]

/-- What the loop over the entries of a container is to come to: the entries that were read, those
that the lenient reading has, and the place behind the closing bracket or the fault that the strict
reading has. -/
def entriesFrom (closer : CodePoint) (entry : Text → Reading α) :
    List α × Cursor → List α × Except Fault Cursor
  | (as, c) =>
    (as ++ (rawEntries closer entry c.ahead).list, c.after (delimited closer entry))

theorem entriesFrom_of_readings {strict : Reading (List α)} {lenient : Entries α}
    (h : (delimited closer entry c.ahead, rawEntries closer entry c.ahead) = (strict, lenient))
    (as : List α) :
    entriesFrom closer entry (as, c) = (as ++ lenient.list, c.after fun _ => strict) := by
  obtain ⟨rfl, rfl⟩ := Prod.mk.inj h
  rfl

/-- Every pass over an entry gets on, since it takes a character for the entry. -/
theorem entryPass_getsOn (hcloser : isCloser closer = true) (hentry : ∀ s, Within 1 s (entry s))
    (as : List α) (c : Cursor) :
    GetsOn (entryPass closer entry) (entriesFrom closer entry) (as, c) := by
  have hcases := readings_cases closer hentry c.ahead
  rcases hpeek : peek c.ahead with f | ⟨found, n⟩
  · -- a comment that is not closed
    rw [hpeek] at hcases
    apply getsOn_last (b := (as, .error (f.further c.position)))
    · simp only [entryPass, Cursor.run_of_error hpeek]
    · rw [entriesFrom_of_readings hcases, Entries.stopped, List.append_nil,
        Cursor.after_of_error rfl]
  rw [hpeek] at hcases
  dsimp only at hcases
  by_cases hfound : found = some closer
  · subst hfound
    rw [if_pos rfl] at hcases
    apply getsOn_last (entryPass_closed hpeek as)
    rw [entriesFrom_of_readings hcases, List.append_nil, Cursor.after_of_ok rfl]
  rw [if_neg hfound] at hcases
  have hn := ((peek_within c.ahead).taken hpeek).2
  have hfirst := (hentry (c.ahead.drop n)).further hn
  rcases hread : (entry (c.ahead.drop n)).further n with f | ⟨a, k⟩
  · -- no entry can be read
    rw [hread] at hcases
    apply getsOn_last (b := (as, .error (f.further c.position)))
    · simp only [entryPass, Cursor.run_of_ok hpeek, if_neg hfound, Cursor.run_forward_of_error hread]
    · rw [entriesFrom_of_readings hcases, Entries.stopped, List.append_nil,
        Cursor.after_of_error rfl]
  rw [hread] at hcases
  dsimp only at hcases
  obtain ⟨hpos, hk⟩ := hfirst.taken hread
  rcases hmark : (separator closer (c.ahead.drop k)).further k with f | ⟨comma, m⟩
  · -- an entry, and nothing that ends it
    rw [hmark] at hcases
    have hend := endOfEntry_of_error hmark
    apply getsOn_last (b := (as ++ [a], .error (f.further c.position)))
    · simp only [entryPass, Cursor.run_of_ok hpeek, if_neg hfound, Cursor.run_forward_of_ok hread,
        Cursor.run_forward_of_error hend]
    · rw [entriesFrom_of_readings hcases, Cursor.after_of_error rfl]
  rw [hmark] at hcases
  have hpass := entryPass_entry hpeek hfound hread hmark as
  obtain ⟨i, hi, rfl⟩ := Reading.further_eq_ok hmark
  have hlt := lt_of_separator hi
  rw [List.length_drop] at hlt
  apply getsOn_next hpass
  · show (c.forward _).ahead.length < c.ahead.length
    rw [Cursor.ahead_forward, List.length_drop]
    cases comma <;> simp only [Bool.false_eq_true, if_false, if_true] <;> omega
  cases comma with
  | false =>
    -- the closing bracket is left, and ends the loop in the next pass
    have hlast : peek (c.forward (k + i)).ahead = .ok (some closer, 0) := by
      rw [Cursor.ahead_forward, ← List.drop_drop]
      exact peek_of_separator hcloser hi
    have hclosed := readings_cases closer hentry (c.forward (k + i)).ahead
    rw [hlast] at hclosed
    dsimp only at hclosed
    rw [if_pos rfl] at hclosed
    simp only [Bool.false_eq_true, if_false]
    rw [entriesFrom_of_readings hcases, entriesFrom_of_readings hclosed, List.append_nil,
      Cursor.after_of_ok rfl, Cursor.after_of_ok rfl, Cursor.forward_forward]
  | true =>
    obtain ⟨hstrict, hlenient⟩ := Prod.mk.inj hcases
    simp only [if_true, entriesFrom]
    rw [hlenient, Cursor.after_of_further hstrict, Cursor.ahead_forward, List.append_assoc,
      List.singleton_append]
    rfl

/-- The loop over the entries of a container ends, behind the closing bracket or with the fault that
the strict reading has, and with the entries that the lenient one has. -/
theorem endsWith_entries (hcloser : isCloser closer = true) (hentry : ∀ s, Within 1 s (entry s))
    (as : List α) (c : Cursor) :
    EndsWith (entryPass closer entry) (as, c) (entriesFrom closer entry (as, c)) := by
  apply endsWith_of_getsOn
  rintro ⟨as, c⟩
  exact entryPass_getsOn hcloser hentry as c

/-! ### Passes over an expression -/

/-- A reader that reads strings wherever a quote comes next, and does anything elsewhere. -/
def ReadsQuoted (str : Text → Reading Text) : Prop :=
  ∀ q s, isQuote q = true → str (q :: s) = string (q :: s)

/-- One pass over an expression, from a place with the closing brackets that are due there; strings
are read by `str`. -/
def expressionPass (str : Text → Reading Text) :
    Text × Cursor → (Text × Cursor) ⊕ Except Fault Cursor
  | (closers, c) =>
    match c.ahead with
    | [] =>
      match closers with
      | [] => .inr (.ok c)
      | closer :: _ => .inr (.error ⟨.missingCloser closer, c.position⟩)
    | b :: _ =>
      if isQuote b then
        match c.run str with
        | .error f => .inr (.error f)
        | .ok (_, c) => .inl (closers, c)
      else if beginsComment c.ahead then
        match c.run layout with
        | .error f => .inr (.error f)
        | .ok (_, c) => .inl (closers, c)
      else
        match closerOf? b with
        | some closer => .inl (closer :: closers, c.forward 1)
        | none =>
          if isCloser b then
            match closers with
            | [] => .inr (.ok c)
            | due :: outer =>
              if b = due then .inl (outer, c.forward 1)
              else .inr (.error ⟨.expectedMark due (some b), c.position⟩)
          else if b = ',' ∧ closers = [] then .inr (.ok c)
          else .inl (closers, c.forward 1)

theorem Reading.andThen_further (n : Nat) (r : Reading α) (next : α → Nat → Reading β) :
    (r.further n).andThen next = (r.andThen fun a k => next a (n + k)).further n := by
  rcases r with f | ⟨a, k⟩
  · rfl
  · exact (Reading.further_further n k _).symm

theorem expressionEnd_of_isQuote {b : CodePoint} (hquote : isQuote b = true) (closers s : Text) :
    expressionEnd closers (b :: s) =
      (string (b :: s)).andThen fun _ n => expressionEnd closers ((b :: s).drop n) := by
  rw [expressionEnd.eq_def]
  simp only [if_pos hquote]
  rcases hread : string (b :: s) with f | ⟨t, n⟩
  · rfl
  · obtain ⟨hpos, -⟩ := (string_within (b :: s)).taken hread
    obtain ⟨m, rfl⟩ := Nat.exists_eq_add_of_le' hpos
    rfl

theorem expressionEnd_of_begins {s : Text} (hbegins : beginsComment s = true) (closers : Text) :
    expressionEnd closers s =
      (comment s).andThen fun _ n => expressionEnd closers (s.drop n) := by
  cases s with
  | nil => cases hbegins
  | cons b s =>
    have hquote : ¬ isQuote b = true := by
      intro hquote
      have hslash : b ≠ .char '/' := by
        rcases isQuote_cases hquote with rfl | rfl | rfl <;> decide
      rw [beginsComment_of_ne hslash] at hbegins
      cases hbegins
    rw [expressionEnd.eq_def]
    simp only [if_neg hquote, if_pos hbegins]
    rcases hread : comment (b :: s) with f | ⟨t, n⟩
    · rfl
    · obtain ⟨-, hpos, -⟩ := step_of_comment hbegins hread closers
      obtain ⟨m, rfl⟩ := Nat.exists_eq_add_of_le' (Nat.succ_le_of_lt hpos)
      rfl

/-- Layout inside of an expression may be taken at once, with all the comments in it: blanks mean
nothing to an expression, so that it comes to the next comment in any case. -/
theorem expressionEnd_layout (closers s : Text) :
    (layout s).andThen (fun _ n => expressionEnd closers (s.drop n)) = expressionEnd closers s := by
  induction hlen : s.length using Nat.strongRecOn generalizing s with
  | ind len ih =>
    cases s with
    | nil =>
      rw [layout]
      exact Reading.further_zero _
    | cons b s =>
      have hrest : ∀ m, (layout (s.drop m)).andThen
          (fun _ n => expressionEnd closers ((b :: s).drop (m + 1 + n))) =
            expressionEnd closers (s.drop m) := by
        intro m
        rw [← ih _ (length_drop_lt hlen m) (s.drop m) rfl]
        simp only [List.drop_drop, Nat.add_right_comm m 1, List.drop_succ_cons]
      by_cases hblank : Text.isBlank b = true
      · have hcomma : b = .char ',' → closers ≠ [] := by
          rintro rfl
          exact absurd hblank (by decide)
        have hnot := beginsComment_of_ne (ne_of_isBlank hblank isBlank_slash) s
        have hone := hrest 0
        rw [List.drop_zero, Nat.zero_add] at hone
        rw [layout_blank hblank, Reading.andThen_further, hone,
          expressionEnd_plain (isPlain_of_isBlank hblank) hnot hcomma]
      · rw [layout, if_neg hblank]
        by_cases hbegins : beginsComment (b :: s) = true
        · rw [expressionEnd_of_begins hbegins]
          rcases hread : comment (b :: s) with f | ⟨⟨⟩, n⟩
          · rfl
          · obtain ⟨-, hpos, -⟩ := step_of_comment hbegins hread closers
            obtain ⟨m, rfl⟩ := Nat.exists_eq_add_of_le' (Nat.succ_le_of_lt hpos)
            dsimp only
            rw [Reading.andThen_further, hrest m]
            rfl
        · have hnot : beginsComment (b :: s) = false := by simpa using hbegins
          rw [comment_of_not_begins hnot]
          exact Reading.further_zero _

theorem Reading.map_id (r : Reading α) : r.map id = r := by
  rcases r with f | ⟨a, n⟩ <;> rfl

/-- What the loop over an expression is to come to: the place where the reader ends, or its
fault. -/
def expressionFrom : Text × Cursor → Except Fault Cursor
  | (closers, c) => c.after (expressionEnd closers)

/-- A pass that takes some characters of an expression. -/
theorem expressionPass_taken {closers ds : Text} {n : Nat} (hn : 0 < n) (hne : c.ahead ≠ [])
    (hend : expressionEnd closers c.ahead = (expressionEnd ds (c.ahead.drop n)).further n)
    (hpass : expressionPass str (closers, c) = .inl (ds, c.forward n)) :
    GetsOn (expressionPass str) expressionFrom (closers, c) := by
  have hpos := List.length_pos_of_ne_nil hne
  apply getsOn_next hpass
  · show (c.forward n).ahead.length < c.ahead.length
    rw [Cursor.ahead_forward, List.length_drop]
    omega
  · rw [← Reading.map_id (expressionEnd ds (c.ahead.drop n))] at hend
    exact (Cursor.after_of_further hend).symm

/-- A pass at a quote reads a string. -/
theorem expressionPass_string (hstr : ReadsQuoted str) {b : CodePoint} {s : Text}
    (hahead : c.ahead = b :: s) (hquote : isQuote b = true) (closers : Text) :
    GetsOn (expressionPass str) expressionFrom (closers, c) := by
  have hend := expressionEnd_of_isQuote hquote closers s
  have hread : c.run str = c.run string := by
    rw [Cursor.run, Cursor.run, hahead, hstr b s hquote]
  rw [← hahead] at hend
  rcases hstring : string c.ahead with f | ⟨t, n⟩
  · rw [hstring] at hend
    apply getsOn_last (b := .error (f.further c.position))
    · simp only [expressionPass, hahead, if_pos hquote, hread, Cursor.run_of_error hstring]
    · exact (Cursor.after_of_error hend).symm
  · obtain ⟨hpos, -⟩ := (string_within c.ahead).taken hstring
    rw [hstring] at hend
    apply expressionPass_taken hpos (by simp [hahead]) hend
    simp only [expressionPass, hahead, if_pos hquote, hread, Cursor.run_of_ok hstring]

/-- A pass at a comment reads the layout that begins with it. -/
theorem expressionPass_comment {b : CodePoint} {s : Text} (hahead : c.ahead = b :: s)
    (hquote : ¬ isQuote b = true) (hbegins : beginsComment (b :: s) = true) (closers : Text) :
    GetsOn (expressionPass str) expressionFrom (closers, c) := by
  have hend := (expressionEnd_layout closers c.ahead).symm
  rcases hlayout : layout c.ahead with f | ⟨⟨⟩, n⟩
  · rw [hlayout] at hend
    apply getsOn_last (b := .error (f.further c.position))
    · simp only [expressionPass, hahead, if_neg hquote, if_pos hbegins, Cursor.run_of_error hlayout]
    · exact (Cursor.after_of_error hend).symm
  · have hpos : 0 < n := by
      rw [Nat.pos_iff_ne_zero]
      rintro rfl
      rw [hahead] at hlayout
      exact absurd (solid_cons_iff.1 hlayout).2 (by simp [hbegins])
    rw [hlayout] at hend
    apply expressionPass_taken hpos (by simp [hahead]) hend
    simp only [expressionPass, hahead, if_neg hquote, if_pos hbegins, Cursor.run_of_ok hlayout]

/-- A pass at any other character takes it, or ends the loop. -/
theorem expressionPass_character {b : CodePoint} {s : Text} (hahead : c.ahead = b :: s)
    (hquote : ¬ isQuote b = true) (hbegins : ¬ beginsComment (b :: s) = true) (closers : Text) :
    GetsOn (expressionPass str) expressionFrom (closers, c) := by
  have hne : c.ahead ≠ [] := by simp [hahead]
  have hend : expressionEnd closers (b :: s) = _ := expressionEnd.eq_def closers (b :: s)
  rcases hopener : closerOf? b with - | closer
  · simp only [if_neg hquote, if_neg hbegins, hopener] at hend
    by_cases hcloser : isCloser b = true
    · rw [if_pos hcloser] at hend
      cases closers with
      | nil =>
        rw [← hahead] at hend
        apply getsOn_last (b := .ok c)
        · simp only [expressionPass, hahead, if_neg hquote, if_neg hbegins, hopener, if_pos hcloser]
        · exact (Cursor.after_of_ok hend).symm
      | cons due outer =>
        dsimp only at hend
        by_cases hdue : b = due
        · rw [if_pos hdue, ← hahead] at hend
          apply expressionPass_taken Nat.one_pos hne (by rw [hend, hahead]; rfl)
          simp only [expressionPass, hahead, if_neg hquote, if_neg hbegins, hopener, if_pos hcloser,
            if_pos hdue]
        · rw [if_neg hdue, ← hahead] at hend
          apply getsOn_last (b := .error ⟨.expectedMark due (some b), c.position⟩)
          · simp only [expressionPass, hahead, if_neg hquote, if_neg hbegins, hopener,
              if_pos hcloser, if_neg hdue]
          · exact (Cursor.after_of_error hend).symm
    · rw [if_neg hcloser] at hend
      by_cases hcomma : b = .char ',' ∧ closers = []
      · rw [if_pos hcomma, ← hahead] at hend
        apply getsOn_last (b := .ok c)
        · simp only [expressionPass, hahead, if_neg hquote, if_neg hbegins, hopener,
            if_neg hcloser, if_pos hcomma]
        · exact (Cursor.after_of_ok hend).symm
      · rw [if_neg hcomma, ← hahead] at hend
        apply expressionPass_taken Nat.one_pos hne (by rw [hend, hahead]; rfl)
        simp only [expressionPass, hahead, if_neg hquote, if_neg hbegins, hopener, if_neg hcloser,
          if_neg hcomma]
  · simp only [if_neg hquote, if_neg hbegins, hopener] at hend
    rw [← hahead] at hend
    apply expressionPass_taken Nat.one_pos hne (by rw [hend, hahead]; rfl)
    simp only [expressionPass, hahead, if_neg hquote, if_neg hbegins, hopener]

/-- A pass at the end of the text ends the loop. -/
theorem expressionPass_end (hahead : c.ahead = []) (closers : Text) :
    GetsOn (expressionPass str) expressionFrom (closers, c) := by
  cases closers with
  | nil =>
    have hend : expressionEnd [] c.ahead = .ok ((), 0) := by rw [hahead, expressionEnd]
    apply getsOn_last (b := .ok c)
    · simp only [expressionPass, hahead]
    · exact (Cursor.after_of_ok hend).symm
  | cons closer closers =>
    have hend : expressionEnd (closer :: closers) c.ahead = .error ⟨.missingCloser closer, 0⟩ := by
      rw [hahead, expressionEnd]
    apply getsOn_last (b := .error ⟨.missingCloser closer, c.position⟩)
    · simp only [expressionPass, hahead]
    · exact (Cursor.after_of_error hend).symm

/-- The loop over an expression ends, where the reader ends and with its fault. -/
theorem endsWith_expression (hstr : ReadsQuoted str) (closers : Text) (c : Cursor) :
    EndsWith (expressionPass str) (closers, c) (expressionFrom (closers, c)) := by
  apply endsWith_of_getsOn
  rintro ⟨closers, c⟩
  rcases hahead : c.ahead with - | ⟨b, s⟩
  · exact expressionPass_end hahead closers
  · by_cases hquote : isQuote b = true
    · exact expressionPass_string hstr hahead hquote closers
    · by_cases hbegins : beginsComment (b :: s) = true
      · exact expressionPass_comment hahead hquote hbegins closers
      · exact expressionPass_character hahead hquote hbegins closers

end TailwindUpgrade.Literal
