/-
TailwindUpgrade/Proofs/Literal/Place.lean

Places in a literal where a value may stand, at any depth.  A `Hole` is a list of entries without
one of them, and a `Place f pre post` a container without one value in it: the text `pre` before the
value, the text `post` behind it, and the value `f v` that the whole has if `v` is put there.

Main results: with a value in its place the text is a container again (`Place.closed`), and is read
as such, with layout around it (`Place.read`).  The text between `pre` and `post` is all that counts
as the value's, so layout may be moved from its beginning to `pre` (`Place.gap`).
-/
import TailwindUpgrade.Proofs.Literal.Sentence

namespace TailwindUpgrade.Literal

variable {β : Type} {closer : CodePoint} {E : β → Text → Prop} {f : Value → Value}
  {pre post g : Text}

/-! ### Lists without an entry -/

/-- A list of entries without one: those before and those behind it, with the text before and the
text behind its own. -/
inductive Hole (closer : CodePoint) (E : β → Text → Prop) : List β → List β → Text → Text → Prop
  | last {g : Text} : Gap g → Hole closer E [] [] g [closer]
  | more {g s : Text} {after : List β} :
      Gap g → Listed closer E after s → Hole closer E [] after g (.char ',' :: s)
  | skip {g x pre post : Text} {b : β} {before after : List β} :
      Gap g → E b x → Hole closer E before after pre post →
      Hole closer E (b :: before) after (g ++ (x ++ .char ',' :: pre)) post

theorem Hole.listed {before after : List β} {b : β} {x : Text}
    (h : Hole closer E before after pre post) (hx : E b x) :
    Listed closer E (before ++ b :: after) (pre ++ (x ++ post)) := by
  induction h with
  | last hg => exact .last hg hx
  | more hg hs => exact .more hg hx hs
  | skip hg hy _ ih =>
    simp only [List.append_assoc, List.cons_append]
    exact .more hg hy ih

theorem Hole.gap {before after : List β} (h : Hole closer E before after pre post) (hg : Gap g) :
    Hole closer E before after (pre ++ g) post := by
  induction h with
  | last hg' => exact .last (hg'.append hg)
  | more hg' hs => exact .more (hg'.append hg) hs
  | skip hg' hy _ ih =>
    simp only [List.append_assoc, List.cons_append]
    exact .skip hg' hy ih

/-! ### Containers without a value -/

/-- A container without one value in it, which is an entry of an array or the value of a field, in
it or in a container inside of it. -/
inductive Place : (Value → Value) → Text → Text → Prop
  | item {before after : List (Value × Text)} {pre post : Text} :
      Hole ']' (ItemText Closed) before after pre post →
      Place (fun v => .array (before.map Prod.fst ++ v :: after.map Prod.fst))
        (.char '[' :: pre) post
  | field {before after : List Entry} {k u g g' pre post : Text} :
      Key k u → Gap g → Gap g' → Hole '\x7d' (FieldText Closed) before after pre post →
      Place
        (fun v =>
          .object (Record.ofList (before.map Entry.field ++ (k, v) :: after.map Entry.field)))
        (.char '\x7b' :: (pre ++ (u ++ (g ++ .char ':' :: g')))) post
  | inside {outer inner : Value → Value} {pre post pre' post' g : Text} :
      Place outer pre post → Place inner pre' post' → Gap g →
      Place (fun v => outer (inner v)) (pre ++ pre') (post' ++ (g ++ post))

/-- Layout before a value belongs to the text before it. -/
theorem Place.gap (h : Place f pre post) (hg : Gap g) : Place f (pre ++ g) post := by
  induction h with
  | item hhole => exact .item (hhole.gap hg)
  | @field before after k u g' g'' pre post hk hg' hg'' hhole =>
    have hplace := Place.field hk hg' (hg''.append hg) hhole
    simpa only [List.append_assoc, List.cons_append] using hplace
  | inside houter _ hg' _ ih =>
    rw [List.append_assoc]
    exact .inside houter ih hg'

/-- A container with a value in its place. -/
theorem Place.closed (h : Place f pre post) {v : Value} {e x : Text}
    (hx : PlacedValue Closed v e x) (hdots : dots.isPrefixOf e = false) :
    Closed (f v) (pre ++ (x ++ post)) := by
  induction h generalizing v e x with
  | @item before after pre post hhole =>
    have hlisted := hhole.listed (.value hx hdots)
    have hclosed := Closed.array (fun _ _ h => h) hlisted
    rw [List.map_append, List.map_cons] at hclosed
    exact hclosed
  | @field before after k u g g' pre post hk hg hg' hhole =>
    have hlisted := hhole.listed (.keyed hk hg hg' hx)
    have hclosed := Closed.object (fun _ _ h => h) hlisted
    rw [List.map_append, List.map_cons, Entry.field, Head.name] at hclosed
    simpa only [List.append_assoc, List.cons_append] using hclosed
  | inside _ _ hg ihouter ihinner =>
    obtain ⟨hplaced, hdots'⟩ := (ihinner hx hdots).placed hg
    have hclosed := ihouter hplaced hdots'
    simpa only [List.append_assoc] using hclosed

/-! ### Whole texts -/

/-- What may stand behind a container at the end of a text: layout, and perhaps a semicolon in
it. -/
inductive Tail : Text → Prop
  | layout {p : Text} : LastGap p → Tail p
  | semicolon {p p' : Text} : Gap p → LastGap p' → Tail (p ++ .char ';' :: p')

theorem Place.ne_str (h : Place f pre post) (v : Value) (t : Text) : f v ≠ .str t := by
  induction h generalizing v with
  | item _ =>
    intro h
    cases h
  | field _ _ _ _ =>
    intro h
    cases h
  | @inside outer inner _ _ _ _ _ _ _ _ ihouter _ => exact ihouter (inner v)

/-- A text that is a container with a value in its place is read as the container with that value.
-/
theorem Place.read (h : Place f pre post) {front tail : Text} (hfront : Gap front)
    (htail : Tail tail) {v : Value} {e x : Text} (hx : PlacedValue Closed v e x)
    (hdots : dots.isPrefixOf e = false) :
    Literal.read (front ++ ((pre ++ (x ++ post)) ++ tail)) = .ok (f v) := by
  apply read_of_sentence
  cases htail with
  | layout hlast => exact .closed hfront (h.closed hx hdots) hlast
  | semicolon hp hp' => exact .semicolon hfront (h.closed hx hdots) (h.ne_str v) hp hp'

end TailwindUpgrade.Literal
