/-
TailwindUpgrade/Proofs/Theme/ColorReference.lean

What is left of the old references to colours when a text is upgraded, and when upgrading it again
changes nothing.  References do not overlap, so each that stands in a text is upgraded, whatever
stands around it (`upgradeColors_append_reference`), and a text without them is what stays as it is
(`upgradeColors_eq_self_iff`).

A new reference together with the text around it may be a reference of the old form again.  This
happens in one way only: if the old one stood between `oklch(` and `)` already
(`hasReference_upgradeColors_iff`).

Main result: upgrading twice is upgrading once just if there is no such reference
(`upgradeColors_upgradeColors_iff`).
-/
import TailwindUpgrade.Proofs.Literal.Record
import TailwindUpgrade.Proofs.Text.Line
import TailwindUpgrade.Proofs.Text.Replace
import TailwindUpgrade.Proofs.Text.Run
import TailwindUpgrade.Theme.ColorReference

namespace TailwindUpgrade.Theme

open Text (Replaced)

variable {s t name : Text}

/-! ### References -/

/-- A text that may name the variable of a reference. -/
structure IsName (name : Text) : Prop where
  ne_nil : name ≠ []
  chars : ∀ c ∈ name, isVariableChar c = true

/-- The reference of the old form to a variable. -/
def reference (name : Text) : Text := referenceStart ++ (name ++ "))")

/-- Whether a reference of the old form stands somewhere in a text. -/
def HasReference (s : Text) : Prop := ∃ name, IsName name ∧ reference name <:+: s

theorem isVariableChar_close : isVariableChar (.char ')') = false := by decide

theorem head_close (s : Text) :
    ∀ c ∈ ((.char ')' : CodePoint) :: s).head?, isVariableChar c = false := by
  rintro c ⟨⟩
  exact isVariableChar_close

theorem head_open (s : Text) :
    ∀ c ∈ ((.char '(' : CodePoint) :: s).head?, isVariableChar c = false := by
  rintro c ⟨⟩
  decide

/-- What is read off the front of a text as a reference is one. -/
theorem reference?_eq_some_iff {rest : Text} :
    reference? s = some (name, rest) ↔ IsName name ∧ s = reference name ++ rest := by
  have hclose : ∀ c ∈ (("))" : Text) ++ rest).head?, isVariableChar c = false :=
    head_close (.char ')' :: rest)
  constructor
  · intro h
    simp only [reference?, Option.bind_eq_bind, Option.bind_eq_some_iff] at h
    obtain ⟨body, hbody, after, hafter, hname⟩ := h
    split at hname
    · cases hname
    · next hne =>
      obtain ⟨rfl, rfl⟩ := Prod.mk.inj (Option.some.inj hname)
      refine ⟨⟨hne, fun c hc => List.mem_takeWhile_imp hc⟩, ?_⟩
      rw [Text.after?_eq_some_iff] at hbody hafter
      rw [hbody, reference, List.append_assoc, List.append_assoc, ← hafter,
        List.takeWhile_append_dropWhile]
  · rintro ⟨hname, rfl⟩
    rw [reference, List.append_assoc, List.append_assoc, reference?,
      Text.after?_eq_some_iff.2 rfl]
    simp only [Option.bind_eq_bind, Option.bind_some]
    rw [Text.takeWhile_append_stop hname.chars hclose,
      Text.dropWhile_append_stop hname.chars hclose, Text.after?_eq_some_iff.2 rfl,
      Option.bind_some, if_neg hname.ne_nil]

theorem reference_eq (name : Text) :
    reference name =
      ("oklch(" : Text) ++ (("var(--" : Text) ++ (name ++ .char ')' :: [.char ')'])) := rfl

theorem reference_ne_nil (name : Text) : reference name ≠ [] := by
  intro h
  cases h

theorem getLast?_reference (name : Text) : (reference name).getLast? = some (.char ')') := by
  have hends : reference name = (referenceStart ++ (name ++ [.char ')'])) ++ [.char ')'] := by
    rw [reference, List.append_assoc, List.append_assoc]
    rfl
  rw [hends, List.getLast?_concat]

theorem close_mem_reference (name : Text) : .char ')' ∈ reference name :=
  List.mem_of_getLast? (getLast?_reference name)

theorem takes_reference? : Text.Takes reference? := by
  intro s name rest h
  obtain ⟨-, rfl⟩ := reference?_eq_some_iff.1 h
  exact ⟨reference name, reference_ne_nil name, rfl⟩

/-- The long name of a colour is a name again. -/
theorem IsName.longName (h : IsName name) : IsName (longName name) := by
  have hlong : ∀ field ∈ longNames, field.2 ≠ [] ∧ ∀ c ∈ field.2, isVariableChar c = true := by
    decide +kernel
  rw [Theme.longName]
  cases hlookup : longNames.lookup name with
  | none => exact h
  | some long =>
    have hmem : (name, long) ∈ longNames := Record.mem_of_get? hlookup
    exact ⟨(hlong _ hmem).1, (hlong _ hmem).2⟩

theorem writeReference_eq (name : Text) :
    writeReference name =
      "var(--" ++ (("color-" ++ longName name) ++ .char ')' :: ([] : Text)) := by
  rw [writeReference]
  simp only [List.append_assoc]
  rfl

theorem IsName.colorName (h : IsName name) :
    IsName (("color-" : Text) ++ Theme.longName name) where
  ne_nil := by
    intro hnil
    cases hnil
  chars c hc := by
    rcases List.mem_append.1 hc with hprefix | hlong
    · have hall : ∀ c ∈ ("color-" : Text), isVariableChar c = true := by decide
      exact hall c hprefix
    · exact h.longName.chars c hlong

/-! ### Names and what follows them -/

/-- Where a name ends, the same follows, whichever name it is that was found to end there. -/
theorem behind_name {v w t u : Text} (hw : ∀ c ∈ w, isVariableChar c = true)
    (hv : ∀ c ∈ v, isVariableChar c = true) (ht : ∀ c ∈ t.head?, isVariableChar c = false)
    (hu : ∀ c ∈ u.head?, isVariableChar c = false) (h : w ++ t = v ++ u) : t = u := by
  have hdrop := congrArg (List.dropWhile isVariableChar) h
  rw [Text.dropWhile_append_stop hw ht, Text.dropWhile_append_stop hv hu] at hdrop
  exact hdrop

/-- No function call begins in a text of which only a name and brackets that close are left: where
the text is cut so that the function's name could begin, it ends before the call's bracket. -/
theorem no_call_in_name {start close x z v u : Text} {c : CodePoint}
    (hcut : start ++ (name ++ .char ')' :: close) = x ++ z)
    (hname : ∀ d ∈ name, isVariableChar d = true)
    (hclose : ∀ d ∈ close, d = .char ')')
    (hcall : ∀ d ∈ c :: v, isVariableChar d = true) (hstart : c ∉ start) (hz : z ≠ []) :
    z ++ t ≠ c :: v ++ .char '(' :: u := by
  intro hnext
  obtain ⟨d, z, rfl⟩ := List.exists_cons_of_ne_nil hz
  obtain rfl : d = c := (List.cons.inj hnext).1
  have hdclose : d ≠ .char ')' := by
    rintro rfl
    have := hcall _ List.mem_cons_self
    rw [isVariableChar_close] at this
    cases this
  have hdrest : d ∉ (.char ')' : CodePoint) :: close := by
    intro hmem
    rcases List.mem_cons.1 hmem with h | h
    · exact hdclose h
    · exact hdclose (hclose d h)
  -- the name is cut in two, since the call begins neither before nor behind it
  have hsplit : ∃ w, (∀ e ∈ w, isVariableChar e = true) ∧ d :: z = w ++ .char ')' :: close := by
    rcases List.append_eq_append_iff.1 hcut with ⟨a, rfl, hrest⟩ | ⟨a, rfl, hrest⟩
    · rcases List.append_eq_append_iff.1 hrest with ⟨b, rfl, hb⟩ | ⟨b, rfl, hb⟩
      · exact absurd (hb ▸ List.mem_append_right b List.mem_cons_self) hdrest
      · exact ⟨b, fun e he => hname e (List.mem_append_right a he), hb⟩
    · cases a with
      | nil => exact ⟨name, hname, hrest⟩
      | cons e a =>
        obtain rfl : d = e := (List.cons.inj hrest).1
        exact absurd (List.mem_append_right x List.mem_cons_self) hstart
  obtain ⟨w, hw, hz⟩ := hsplit
  rw [hz, List.append_assoc] at hnext
  have hbehind := behind_name hw hcall (head_close _) (head_open _) hnext
  cases hbehind

/-! ### Upgrading -/

/-- Upgrading, as a relation between the text and what it becomes. -/
abbrev Upgraded : Text → Text → Prop := Replaced reference? writeReference

theorem upgraded_iff : Upgraded s t ↔ upgradeColors s = t :=
  Text.replaced_iff takes_reference?

theorem upgraded (s : Text) : Upgraded s (upgradeColors s) := upgraded_iff.2 rfl

theorem exists_reference_of_found {w : Text} (h : reference? (w ++ s) = some (name, s)) :
    IsName name ∧ w = reference name := by
  obtain ⟨hname, hcut⟩ := reference?_eq_some_iff.1 h
  exact ⟨hname, List.append_cancel_right hcut⟩

theorem Upgraded.reference (hname : IsName name) (h : Upgraded s t) :
    Upgraded (reference name ++ s) (writeReference name ++ t) :=
  .found (reference_ne_nil name) (reference?_eq_some_iff.2 ⟨hname, rfl⟩) h

/-! ### Upgraded lines -/

theorem upgradeColors_ne_nil (h : s ≠ []) : upgradeColors s ≠ [] := by
  have hupgraded := upgraded s
  generalize upgradeColors s = t at hupgraded
  rintro rfl
  generalize hout : ([] : Text) = out at hupgraded
  cases hupgraded with
  | nil => exact h rfl
  | plain _ _ => cases hout
  | found _ _ _ => cases hout

/-- A break is no character of a name. -/
theorem isLineBreak_of_isVariableChar {c : CodePoint} (h : isVariableChar c = true) :
    Text.isLineBreak c = false := by
  by_contra hbreak
  rw [Bool.not_eq_false] at hbreak
  have hblank : Text.isBlank c = true := by
    simp only [Text.isLineBreak, Bool.or_eq_true, Bool.and_eq_true, decide_eq_true_eq,
      beq_iff_eq] at hbreak
    simp only [Text.isBlank, Bool.or_eq_true, Bool.and_eq_true, decide_eq_true_eq, beq_iff_eq]
    omega
  have hpart := (Text.isKeyPart_eq_false.1 (Text.isKeyPart_of_isBlank hblank)).1
  rw [Text.isIdentifierPart, Bool.or_eq_false_iff] at hpart
  rw [isVariableChar, hpart.1, Bool.false_or, beq_iff_eq] at h
  rw [h] at hbreak
  exact absurd hbreak (by decide)

theorem unbroken_writeReference (h : IsName name) : Text.Unbroken (writeReference name) := by
  have hstart : Text.Unbroken "var(--" := by decide
  have hclose : Text.Unbroken [.char ')'] := by decide
  rw [writeReference_eq]
  intro c hc
  rcases List.mem_append.1 hc with hc | hc
  · exact hstart c hc
  · rcases List.mem_append.1 hc with hc | hc
    · exact isLineBreak_of_isVariableChar (h.colorName.chars c hc)
    · exact hclose c hc

/-- A line is upgraded to a line. -/
theorem Upgraded.unbroken (h : Upgraded s t) : Text.Unbroken s → Text.Unbroken t := by
  induction h with
  | nil => exact id
  | plain _ _ ih =>
    intro hs d hd
    rcases List.mem_cons.1 hd with rfl | hd
    · exact hs d List.mem_cons_self
    · exact ih (fun e he => hs e (List.mem_cons_of_mem _ he)) d hd
  | found _ hfound _ ih =>
    intro hs d hd
    rcases List.mem_append.1 hd with hd | hd
    · exact unbroken_writeReference (exists_reference_of_found hfound).1 d hd
    · exact ih (fun e he => hs e (List.mem_append_right _ he)) d hd

/-! ### Parts of a text -/

/-- A text into which no reference leads that begins before it. -/
def Uncrossed (back : Text) : Prop :=
  ∀ other front z rest, IsName other → reference other = front ++ z → back = z ++ rest →
    front = [] ∨ z = []

/-- References do not overlap. -/
theorem uncrossed_reference (name back : Text) : Uncrossed (reference name ++ back) := by
  intro other front z rest hother hcut hnext
  by_contra hcross
  rw [not_or] at hcross
  obtain ⟨c, x, rfl⟩ := List.exists_cons_of_ne_nil hcross.1
  have htail : ("klch(var(--" : Text) ++ (other ++ .char ')' :: [.char ')']) = x ++ z :=
    (List.cons.inj hcut).2
  exact no_call_in_name (c := .char 'o') (v := "klch") htail hother.chars (by decide) (by decide)
    (by decide) hcross.2 hnext.symm

/-- No reference ends where nothing is closed. -/
theorem uncrossed_of_not_mem {back : Text} (h : .char ')' ∉ back) : Uncrossed back := by
  intro other front z rest _ hcut hback
  by_contra hcross
  rw [not_or] at hcross
  have hlast := congrArg List.getLast? hcut
  rw [List.getLast?_append_of_ne_nil _ hcross.2, getLast?_reference] at hlast
  exact h (hback ▸ List.mem_append_left rest (List.mem_of_getLast? hlast.symm))

theorem Uncrossed.reference?_eq_none {back : Text} {c : CodePoint} (hback : Uncrossed back)
    (hnone : reference? (c :: s) = none) : reference? (c :: (s ++ back)) = none := by
  rw [Option.eq_none_iff_forall_ne_some]
  rintro ⟨other, rest⟩ hfound
  obtain ⟨hother, hcut⟩ := reference?_eq_some_iff.1 hfound
  -- a reference that begins before the text ends before it, and so was there without it
  obtain ⟨middle, hmiddle⟩ : ∃ middle, c :: s = reference other ++ middle := by
    have hcut : (c :: s) ++ back = reference other ++ rest := hcut
    rcases List.append_eq_append_iff.1 hcut with ⟨z, hother', hz⟩ | ⟨middle, hfront, -⟩
    · rcases hback other (c :: s) z rest hother hother' hz with hnil | rfl
      · cases hnil
      · exact ⟨[], by rw [hother', List.append_nil, List.append_nil]⟩
    · exact ⟨middle, hfront⟩
  rw [reference?_eq_some_iff.2 ⟨hother, hmiddle⟩] at hnone
  cases hnone

/-- Two parts of a text are upgraded each by itself if no reference leads from one to the other. -/
theorem Upgraded.append {back u : Text} (hback : Uncrossed back) (h : Upgraded s t)
    (hu : Upgraded back u) : Upgraded (s ++ back) (t ++ u) := by
  induction h with
  | nil => exact hu
  | plain hnone _ ih => exact .plain (hback.reference?_eq_none hnone) ih
  | found _ hfound _ ih =>
    obtain ⟨hother, rfl⟩ := exists_reference_of_found hfound
    rw [List.append_assoc, List.append_assoc]
    exact ih.reference hother

/-- **Every reference is upgraded, whatever stands around it.** -/
theorem upgradeColors_append_reference (hname : IsName name) (front back : Text) :
    upgradeColors (front ++ (reference name ++ back)) =
      upgradeColors front ++ (writeReference name ++ upgradeColors back) :=
  upgraded_iff.1
    ((upgraded front).append (uncrossed_reference name back) ((upgraded back).reference hname))

/-! ### What stays as it is -/

theorem HasReference.of_infix (h : HasReference s) (hs : s <:+: t) : HasReference t := by
  obtain ⟨name, hname, hstands⟩ := h
  exact ⟨name, hname, hstands.trans hs⟩

theorem Upgraded.not_hasReference (h : Upgraded s t) : s = t → ¬HasReference s := by
  induction h with
  | nil =>
    rintro - ⟨name, -, hstands⟩
    exact reference_ne_nil name (List.eq_nil_of_infix_nil hstands)
  | plain hnone _ ih =>
    rintro heq ⟨name, hname, hstands⟩
    rcases List.infix_cons_iff.1 hstands with ⟨rest, hfront⟩ | hbehind
    · rw [reference?_eq_some_iff.2 ⟨hname, hfront.symm⟩] at hnone
      cases hnone
    · exact ih (List.cons.inj heq).2 ⟨name, hname, hbehind⟩
  | found _ hfound _ _ =>
    intro heq
    obtain ⟨-, rfl⟩ := exists_reference_of_found hfound
    cases heq

theorem Upgraded.eq_of_not_hasReference (h : Upgraded s t) : ¬HasReference s → s = t := by
  induction h with
  | nil =>
    intro
    rfl
  | @plain c s t _ _ ih =>
    intro hnone
    rw [ih fun h => hnone (h.of_infix (List.suffix_cons c s).isInfix)]
  | @found w s t name _ hfound _ _ =>
    intro hnone
    obtain ⟨hname, rfl⟩ := exists_reference_of_found hfound
    exact absurd ⟨name, hname, (List.prefix_append _ s).isInfix⟩ hnone

/-- The texts that stay as they are are those without a reference. -/
theorem upgradeColors_eq_self_iff : upgradeColors s = s ↔ ¬HasReference s := by
  constructor
  · intro h
    exact (upgraded_iff.2 h).not_hasReference rfl
  · intro h
    exact ((upgraded s).eq_of_not_hasReference h).symm

/-! ### What is left -/

/-- A reference of the old form between the brackets of another color. -/
def nested (name : Text) : Text := "oklch(" ++ (reference name ++ ")")

/-- A nested reference is upgraded to a reference of the old form. -/
theorem nested_upgraded (name : Text) :
    "oklch(" ++ (writeReference name ++ ")") = reference ("color-" ++ longName name) := by
  rw [writeReference_eq, reference]
  simp only [List.append_assoc]
  rfl

/-- Only a new reference begins as one does; other characters were there before. -/
theorem Upgraded.exists_cons {c : CodePoint} (h : Upgraded s (c :: t)) (hc : c ≠ .char 'v') :
    ∃ rest, s = c :: rest ∧ Upgraded rest t := by
  generalize hout : c :: t = out at h
  cases h with
  | nil => cases hout
  | plain _ hrest =>
    obtain ⟨rfl, rfl⟩ := List.cons.inj hout
    exact ⟨_, rfl, hrest⟩
  | found _ _ _ => exact absurd (List.cons.inj hout).1 hc

/-- The variable of a reference is called in one place. -/
theorem variable_in_reference {p q u : Text} (hname : IsName name)
    (hcut : reference name = p ++ q) (hq : q ≠ []) (hnext : q ++ t = "var(" ++ u) :
    p = "oklch(" := by
  rw [reference_eq] at hcut
  rcases List.append_eq_append_iff.1 hcut with ⟨b, rfl, hrest⟩ | ⟨b, hp, hrest⟩
  · cases b with
    | nil => exact List.append_nil _
    | cons c b =>
      have htail : ("ar(--" : Text) ++ (name ++ .char ')' :: [.char ')']) = b ++ q :=
        (List.cons.inj hrest).2
      exact absurd hnext
        (no_call_in_name (c := .char 'v') (v := "ar") htail hname.chars (by decide) (by decide)
          (by decide) hq)
  · cases b with
    | nil => exact (List.append_nil p).symm.trans hp.symm
    | cons d b =>
      rw [hrest] at hnext
      have hd : d = .char 'v' := (List.cons.inj hnext).1
      have hmem : d ∈ ("oklch(" : Text) := hp ▸ List.mem_append_right p List.mem_cons_self
      rw [hd] at hmem
      exact absurd hmem (by decide)

/-- A reference that comes out in front stood there before, or one was nested there. -/
theorem Upgraded.front (hname : IsName name) (h : Upgraded s (Theme.reference name ++ t)) :
    (∃ rest, s = Theme.reference name ++ rest) ∨
      ∃ other rest, IsName other ∧ s = nested other ++ rest := by
  rcases Replaced.front h with
    ⟨rest, hs, -⟩ | ⟨p, q, w, other, s', t', hcut, hq, rfl, hfound, hnext, hrest⟩
  · exact .inl ⟨rest, hs⟩
  · right
    obtain ⟨hother, rfl⟩ := exists_reference_of_found hfound
    rw [writeReference_eq] at hnext
    obtain rfl := variable_in_reference hname hcut hq hnext
    have hq : q = ("var(--" : Text) ++ (name ++ .char ')' :: [.char ')']) :=
      (List.append_cancel_left ((reference_eq name).symm.trans hcut)).symm
    have hnames : ("var(--" : Text) ++ (name ++ .char ')' :: .char ')' :: t) =
        "var(--" ++ (("color-" ++ longName other) ++ .char ')' :: t') := by
      simpa only [hq, List.append_assoc, List.cons_append, List.nil_append] using hnext
    -- the new reference ends with the first closing bracket, so that the second one was there
    have hbehind : .char ')' :: .char ')' :: t = .char ')' :: t' :=
      behind_name hname.chars hother.colorName.chars (head_close _) (head_close t')
        (List.append_cancel_left hnames)
    obtain rfl := (List.cons.inj hbehind).2
    obtain ⟨rest, rfl, -⟩ := Upgraded.exists_cons hrest (by decide)
    refine ⟨other, rest, hother, ?_⟩
    rw [nested]
    simp only [List.append_assoc]
    rfl

/-- References that come out stood nested before. -/
theorem Upgraded.exists_nested (h : Upgraded s t) :
    HasReference t → ∃ other, IsName other ∧ nested other <:+: s := by
  induction h with
  | nil =>
    rintro ⟨name, -, hstands⟩
    exact absurd (List.eq_nil_of_infix_nil hstands) (reference_ne_nil name)
  | @plain c s t hnone hrest ih =>
    rintro ⟨name, hname, hstands⟩
    rcases List.infix_cons_iff.1 hstands with ⟨behind, hfront⟩ | hbehind
    · have hall : Upgraded (c :: s) (Theme.reference name ++ behind) :=
        hfront ▸ Replaced.plain hnone hrest
      rcases hall.front hname with ⟨rest, hs⟩ | ⟨other, rest, hother, hs⟩
      · rw [reference?_eq_some_iff.2 ⟨hname, hs⟩] at hnone
        cases hnone
      · rw [hs]
        exact ⟨other, hother, (List.prefix_append _ rest).isInfix⟩
    · obtain ⟨other, hother, hnested⟩ := ih ⟨name, hname, hbehind⟩
      exact ⟨other, hother, List.infix_cons hnested⟩
  | @found w s t found _ hfound hrest ih =>
    rintro ⟨name, hname, front, back, hstands⟩
    obtain ⟨hcalled, rfl⟩ := exists_reference_of_found hfound
    -- a reference that comes out does not begin in a new one
    have hbehind : Theme.reference name <:+: t := by
      rw [List.append_assoc] at hstands
      rcases List.append_eq_append_iff.1 hstands with ⟨z, hcut, hnext⟩ | ⟨z, -, ht⟩
      · by_cases hz : z = []
        · rw [hz, List.nil_append] at hnext
          exact hnext ▸ (List.prefix_append _ back).isInfix
        · rw [writeReference_eq] at hcut
          exact absurd hnext.symm
            (no_call_in_name (c := .char 'o') (v := "klch") hcut hcalled.colorName.chars
              (by decide) (by decide) (by decide) hz)
      · exact ⟨z, back, by rw [ht, List.append_assoc]⟩
    obtain ⟨other, hother, hnested⟩ := ih ⟨name, hname, hbehind⟩
    exact ⟨other, hother, hnested.trans (List.suffix_append _ s).isInfix⟩

theorem reference?_close (s : Text) : reference? (.char ')' :: s) = none := by
  rw [Option.eq_none_iff_forall_ne_some]
  rintro ⟨name, rest⟩ hfound
  cases (reference?_eq_some_iff.1 hfound).2

/-- **What is left is what was nested.** A reference of the old form stands in an upgraded text just
if one stood between `oklch(` and `)` in the text itself. -/
theorem hasReference_upgradeColors_iff (css : Text) :
    HasReference (upgradeColors css) ↔ ∃ name, IsName name ∧ nested name <:+: css := by
  constructor
  · exact (upgraded css).exists_nested
  · rintro ⟨name, hname, front, back, rfl⟩
    have hcall : Upgraded "oklch(" "oklch(" := by
      rw [upgraded_iff, upgradeColors_eq_self_iff]
      rintro ⟨other, -, hstands⟩
      exact absurd (hstands.subset (close_mem_reference other)) (by decide)
    have hfront : Upgraded (front ++ "oklch(") (upgradeColors front ++ "oklch(") :=
      (upgraded front).append (uncrossed_of_not_mem (by decide)) hcall
    have hback : Upgraded (.char ')' :: back) (.char ')' :: upgradeColors back) :=
      .plain (reference?_close back) (upgraded back)
    have hcss : front ++ nested name ++ back =
        (front ++ "oklch(") ++ (reference name ++ .char ')' :: back) := by
      rw [nested]
      simp only [List.append_assoc]
      rfl
    rw [hcss, upgradeColors_append_reference hname, upgraded_iff.1 hfront, upgraded_iff.1 hback]
    refine ⟨"color-" ++ longName name, hname.colorName, upgradeColors front, upgradeColors back, ?_⟩
    rw [← nested_upgraded]
    simp only [List.append_assoc]
    rfl

/-- **When upgrading a text twice is upgrading it once**: if no reference of the old form is left,
that is, if none stood between `oklch(` and `)`. -/
theorem upgradeColors_upgradeColors_iff (css : Text) :
    (upgradeColors (upgradeColors css) = upgradeColors css ↔
      ¬HasReference (upgradeColors css)) ∧
    (HasReference (upgradeColors css) ↔ ∃ name, IsName name ∧ nested name <:+: css) :=
  ⟨upgradeColors_eq_self_iff, hasReference_upgradeColors_iff css⟩

/-- A nested reference is upgraded to one that is upgraded once more. -/
theorem upgradeColors_upgradeColors_nested :
    upgradeColors (upgradeColors "oklch(oklch(var(--p)))") ≠
      upgradeColors "oklch(oklch(var(--p)))" := by
  rw [Ne, upgradeColors_eq_self_iff, not_not, hasReference_upgradeColors_iff]
  exact ⟨"p", ⟨by decide, by decide⟩, List.infix_refl _⟩

end TailwindUpgrade.Theme
