/-
TailwindUpgrade/Proofs/Sheet/Component.lean

What is found in a component layer.  A `ClassRule` is a rule as it is written, and `Spacing` what
may stand between rules: blanks and closed comments.  The rules are looked for in the whole text, so
a rule that stands in a comment is found like any other.

Main results: of rules with spacing between them in which no brace is opened, every one is found and
nothing is left over (`components_written`); and spacing by itself gives nothing just if no rule
stands in it, in one comment or across several (`components_spacing_iff`).
-/
import TailwindUpgrade.Proofs.Literal.Gap
import TailwindUpgrade.Proofs.Literal.Record
import TailwindUpgrade.Proofs.Text.Match
import TailwindUpgrade.Proofs.Text.Run
import TailwindUpgrade.Sheet.Layer

namespace TailwindUpgrade.Sheet

open Text (AllBlank Replaced)

variable {s t rest css : Text}

/-! ### Rules -/

/-- A rule for a single class as it is written: the name of the class, the blanks before the opening
brace, and what stands between the braces. -/
structure ClassRule where
  name : Text
  gap : Text
  body : Text
  name_ne_nil : name ≠ [] := by decide
  name_chars : ∀ c ∈ name, isClassChar c = true := by decide
  gap_blank : ∀ c ∈ gap, Text.isBlank c = true := by decide
  body_open : .char '\x7d' ∉ body := by decide

namespace ClassRule

/-- The text of a rule. -/
def text (r : ClassRule) : Text :=
  .char '.' :: (r.name ++ (r.gap ++ .char '\x7b' :: (r.body ++ [.char '\x7d'])))

/-- What is found of a rule. -/
def found (r : ClassRule) : Text × Text := (r.name, r.body)

theorem text_append (r : ClassRule) (s : Text) :
    r.text ++ s =
      .char '.' :: (r.name ++ (r.gap ++ .char '\x7b' :: (r.body ++ .char '\x7d' :: s))) := by
  simp [text]

theorem text_ne_nil (r : ClassRule) : r.text ≠ [] := List.cons_ne_nil _ _

end ClassRule

theorem isClassChar_of_isBlank {c : CodePoint} (h : Text.isBlank c = true) :
    isClassChar c = false := by
  have hall : ∀ n ∈ Text.blankNumbers, isClassChar (.ofNat n) = false := by decide
  rw [← CodePoint.ofNat_toNat c]
  exact hall _ (Text.toNat_mem_blankNumbers h)

/-- The rule at the front of a text is read as what it is, whatever follows it. -/
theorem classRule?_text (r : ClassRule) (s : Text) :
    classRule? (r.text ++ s) = some (r.found, s) := by
  have hgap : ∀ d ∈ (r.gap ++ .char '\x7b' :: (r.body ++ .char '\x7d' :: s)).head?,
      isClassChar d = false := by
    intro d hd
    cases hblanks : r.gap with
    | nil =>
      rw [hblanks] at hd
      obtain rfl : CodePoint.char '\x7b' = d := by simpa using hd
      decide
    | cons e gap =>
      rw [hblanks] at hd
      obtain rfl : e = d := by simpa using hd
      exact isClassChar_of_isBlank (r.gap_blank e (hblanks ▸ List.mem_cons_self))
  have hopen : ∀ d ∈ ((.char '\x7b' : CodePoint) :: (r.body ++ .char '\x7d' :: s)).head?,
      Text.isBlank d = false := by
    rintro d ⟨⟩
    decide
  have hbody : ∀ d ∈ r.body, decide (d ≠ CodePoint.char '\x7d') = true := by
    intro d hd
    apply decide_eq_true
    rintro rfl
    exact r.body_open hd
  have hclose : ∀ d ∈ ((.char '\x7d' : CodePoint) :: s).head?,
      decide (d ≠ CodePoint.char '\x7d') = false := by
    rintro d ⟨⟩
    decide
  rw [ClassRule.text_append, classRule?]
  simp only [Text.takeWhile_append_stop r.name_chars hgap,
    Text.dropWhile_append_stop r.name_chars hgap, Text.dropWhile_append_stop r.gap_blank hopen,
    Text.takeWhile_append_stop hbody hclose, Text.dropWhile_append_stop hbody hclose,
    if_neg r.name_ne_nil]
  rfl

/-- What is read off the front of a text as a rule is one. -/
theorem exists_classRule {a : Text × Text} (h : classRule? s = some (a, rest)) :
    ∃ r : ClassRule, a = r.found ∧ s = r.text ++ rest := by
  unfold classRule? at h
  split at h
  · next s =>
    simp only at h
    split at h
    · next inside hopen =>
      split at h
      · next c after hclose =>
        split at h
        · cases h
        · next hname =>
          obtain ⟨rfl, rfl⟩ := Prod.mk.inj (Option.some.inj h)
          obtain rfl : c = .char '\x7d' := by
            have hnot := List.head?_dropWhile_not (fun d => decide (d ≠ .char '\x7d')) inside
            rw [hclose] at hnot
            simpa using hnot
          refine ⟨⟨s.takeWhile isClassChar, (s.dropWhile isClassChar).takeWhile Text.isBlank,
            inside.takeWhile fun d => decide (d ≠ .char '\x7d'), hname,
            fun c hc => List.mem_takeWhile_imp hc, fun c hc => List.mem_takeWhile_imp hc, ?_⟩,
            rfl, ?_⟩
          · intro hmem
            simpa using List.mem_takeWhile_imp hmem
          · rw [ClassRule.text_append, ← hclose, List.takeWhile_append_dropWhile, ← hopen,
              List.takeWhile_append_dropWhile, List.takeWhile_append_dropWhile]
      · cases h
    · cases h
  · cases h

theorem takes_classRule? : Text.Takes classRule? := by
  intro s a rest h
  obtain ⟨r, -, hcut⟩ := exists_classRule h
  exact ⟨r.text, r.text_ne_nil, hcut⟩

/-- A rule stands in a text just if one is read somewhere in it. -/
theorem exists_text_infix_iff :
    (∃ r : ClassRule, r.text <:+: s) ↔ ∃ z, z ≠ [] ∧ z <:+ s ∧ classRule? z ≠ none := by
  constructor
  · rintro ⟨r, hstands⟩
    obtain ⟨z, ⟨rest, rfl⟩, hsuffix⟩ := List.infix_iff_prefix_suffix.1 hstands
    refine ⟨r.text ++ rest, by simp [r.text_ne_nil], hsuffix, ?_⟩
    rw [classRule?_text]
    exact Option.some_ne_none _
  · rintro ⟨z, -, hsuffix, hfound⟩
    obtain ⟨⟨a, rest⟩, hfound⟩ := Option.ne_none_iff_exists'.1 hfound
    obtain ⟨r, -, rfl⟩ := exists_classRule hfound
    exact ⟨r, (List.prefix_append r.text rest).isInfix.trans hsuffix.isInfix⟩

/-- No rule begins in a text in which no brace is opened, even if a rule follows it. -/
theorem classRule?_eq_none {z : Text} (hz : z ≠ []) (hopen : .char '\x7b' ∉ z)
    (ht : ∀ c ∈ t.head?, c = .char '.') : classRule? (z ++ t) = none := by
  rw [Option.eq_none_iff_forall_ne_some]
  rintro ⟨a, rest⟩ hfound
  obtain ⟨r, -, hcut⟩ := exists_classRule hfound
  -- the text ends before the brace, so what follows goes on with the rest of the heading
  have hheading : ∀ d ∈ r.name ++ r.gap, d ≠ .char '.' := by
    rintro d hd rfl
    rcases List.mem_append.1 hd with hname | hgap
    · exact absurd (r.name_chars _ hname) (by decide)
    · exact absurd (r.gap_blank _ hgap) (by decide)
  have hbrace : ∀ u, t ≠ .char '\x7b' :: u := by
    rintro u rfl
    cases ht _ rfl
  have hcut : z ++ t = (.char '.' :: (r.name ++ r.gap)) ++
      .char '\x7b' :: (r.body ++ .char '\x7d' :: rest) := by
    rw [hcut, ClassRule.text_append]
    simp
  rcases List.append_eq_append_iff.1 hcut with ⟨v, hv, rfl⟩ | ⟨v, rfl, hv⟩
  · cases v with
    | nil => exact hbrace _ rfl
    | cons d v =>
      obtain ⟨c, z, rfl⟩ := List.exists_cons_of_ne_nil hz
      have hmem : d ∈ r.name ++ r.gap := by
        rw [(List.cons.inj hv).2]
        exact List.mem_append_right z List.mem_cons_self
      exact hheading d hmem (ht d rfl)
  · cases v with
    | nil => exact hbrace _ hv.symm
    | cons d v =>
      obtain rfl : CodePoint.char '\x7b' = d := (List.cons.inj hv).1
      exact hopen (List.mem_append_right _ List.mem_cons_self)

/-! ### Spacing -/

/-- What may stand between rules: blanks and closed comments. -/
inductive Spacing : Text → Prop
  | nil : Spacing []
  | blank {c : CodePoint} {s : Text} : Text.isBlank c = true → Spacing s → Spacing (c :: s)
  | comment {inside s : Text} : ¬ [.char '*', .char '/'] <:+: inside → Spacing s →
      Spacing (.char '/' :: .char '*' :: (inside ++ .char '*' :: .char '/' :: s))

theorem Spacing.append (hs : Spacing s) (ht : Spacing t) : Spacing (s ++ t) := by
  induction hs with
  | nil => exact ht
  | blank hc _ ih => exact .blank hc ih
  | @comment inside s hinside _ ih =>
    have hcomment := Spacing.comment hinside ih
    simpa using hcomment

theorem closedComment?_comment {inside : Text} (h : ¬ [.char '*', .char '/'] <:+: inside)
    (s : Text) :
    closedComment? (.char '/' :: .char '*' :: (inside ++ .char '*' :: .char '/' :: s)) =
      some ((), s) := by
  have hdrop : (inside ++ .char '*' :: .char '/' :: s).drop (inside.length + 2) = s := by
    rw [← List.drop_drop, List.drop_left]
    rfl
  rw [closedComment?, Literal.blockLength?_append h, Option.map_some, hdrop]

theorem closedComment?_blank {c : CodePoint} (h : Text.isBlank c = true) (s : Text) :
    closedComment? (c :: s) = none := by
  unfold closedComment?
  split
  · next heq =>
    obtain ⟨rfl, -⟩ := List.cons.inj heq
    exact absurd h (by decide)
  · rfl

/-- Without its comments, spacing is blanks. -/
theorem Spacing.exists_replaced (h : Spacing s) :
    ∃ t, Replaced closedComment? (fun _ => []) s t ∧ AllBlank t := by
  induction h with
  | nil => exact ⟨[], .nil, Text.allBlank_nil⟩
  | @blank c s hc _ ih =>
    obtain ⟨t, ht, hblank⟩ := ih
    exact ⟨c :: t, .plain (closedComment?_blank hc s) ht, List.forall_mem_cons.2 ⟨hc, hblank⟩⟩
  | @comment inside s hinside _ ih =>
    obtain ⟨t, ht, hblank⟩ := ih
    have hfound := closedComment?_comment hinside s
    have hsplit : (.char '/' :: .char '*' :: (inside ++ .char '*' :: .char '/' :: s) : Text) =
        (.char '/' :: .char '*' :: (inside ++ [.char '*', .char '/'])) ++ s := by
      simp
    rw [hsplit] at hfound ⊢
    exact ⟨t, .found (List.cons_ne_nil _ _) hfound ht, hblank⟩

/-- Spacing between rules is not left over. -/
theorem hasLeftover_of_spacing (h : Spacing (Text.replaceMatches classRule? (fun _ => []) css)) :
    hasLeftover css = false := by
  obtain ⟨t, ht, hblank⟩ := h.exists_replaced
  rw [hasLeftover]
  simp only [ht.eq, Text.strip_of_allBlank hblank]
  rfl

/-! ### Spacing by itself -/

/-- Everything that comes out stands in the text. -/
theorem exists_classRule_of_get? {name body : Text}
    (h : Record.get? name (components css).value = some body) :
    ∃ r : ClassRule, r.text <:+: css ∧ r.name = name ∧ Text.strip r.body = body := by
  obtain ⟨a, ha, hcomponent⟩ := List.mem_map.1 (Record.mem_of_get?_ofList h)
  obtain ⟨rfl, rfl⟩ := Prod.mk.inj hcomponent
  obtain ⟨z, rest, hsuffix, hfound⟩ := Text.exists_of_mem_allMatches takes_classRule? ha
  obtain ⟨r, rfl, rfl⟩ := exists_classRule hfound
  exact ⟨r, (List.prefix_append r.text rest).isInfix.trans hsuffix.isInfix, rfl, rfl⟩

theorem allMatches_classRule?_eq_nil_iff :
    Text.allMatches classRule? css = [] ↔ ∀ r : ClassRule, ¬ r.text <:+: css := by
  rw [Text.allMatches_eq_nil_iff takes_classRule?, ← not_exists, exists_text_infix_iff]
  simp only [not_exists, not_and, not_not]

/-- **Rules in comments are found.**  Of spacing by itself nothing comes out, and nothing is said
about it, just if no rule stands in it; and what comes out stands there. -/
theorem components_spacing_iff (h : Spacing css) :
    (components css = .silent [] ↔ ∀ r : ClassRule, ¬ r.text <:+: css) ∧
    ∀ name body, Record.get? name (components css).value = some body →
      ∃ r : ClassRule, r.text <:+: css ∧ r.name = name ∧ Text.strip r.body = body := by
  refine ⟨?_, fun name body => exists_classRule_of_get?⟩
  rw [← allMatches_classRule?_eq_nil_iff]
  constructor
  · intro hsilent
    have hrules : classRules css = [] :=
      Record.ofList_eq_nil_iff.1 (congrArg Reported.value hsilent)
    exact List.map_eq_nil_iff.1 hrules
  · intro hnone
    have hrules : classRules css = [] := by rw [classRules, hnone, List.map_nil]
    have hbetween := Text.replaceMatches_of_allMatches takes_classRule? (fun _ => []) hnone
    have hleftover : hasLeftover css = false := hasLeftover_of_spacing (by rwa [hbetween])
    rw [components, hrules, hleftover]
    rfl

/-- A rule that begins in one comment and ends in the next is found. -/
theorem components_spacing_iff_across :
    Spacing "/* .a \x7b x *//* y \x7d */" ∧
      components "/* .a \x7b x *//* y \x7d */" ≠ .silent [] := by
  have hspacing : Spacing "/* .a \x7b x *//* y \x7d */" :=
    @Spacing.comment " .a \x7b x " _ (by decide)
      (@Spacing.comment " y \x7d " _ (by decide) .nil)
  let rule : ClassRule := { name := "a", gap := " ", body := " x *//* y " }
  have hstands : rule.text <:+: "/* .a \x7b x *//* y \x7d */" := ⟨"/* ", " */", by decide⟩
  refine ⟨hspacing, fun hsilent => ?_⟩
  exact (components_spacing_iff hspacing).1.1 hsilent rule hstands

/-- A rule that is commented out is found. -/
theorem components_comment_ne :
    Spacing "/* .btn \x7b color: red \x7d */" ∧
      components "/* .btn \x7b color: red \x7d */" ≠ .silent [] := by
  refine ⟨@Spacing.comment " .btn \x7b color: red \x7d " _ (by decide) .nil, ?_⟩
  decide +kernel

/-! ### Rules with spacing between them -/

/-- Rules with spacing before the first, between them and behind the last, in which no brace is
opened. -/
inductive Written : List ClassRule → Text → Prop
  | none {s : Text} : Spacing s → .char '\x7b' ∉ s → Written [] s
  | more {sep s : Text} {r : ClassRule} {rules : List ClassRule} :
      Spacing sep → .char '\x7b' ∉ sep → Written rules s → Written (r :: rules) (sep ++ (r.text ++ s))

variable {rules : List ClassRule}

/-- In front of a rule, and at the end, no rule begins where no brace is opened. -/
theorem no_rule_before (hopen : .char '\x7b' ∉ s) (ht : ∀ c ∈ t.head?, c = .char '.') :
    ∀ z, z ≠ [] → z <:+ s → classRule? (z ++ t) = none := by
  intro z hz hsuffix
  exact classRule?_eq_none hz (fun hmem => hopen (hsuffix.subset hmem)) ht

theorem ClassRule.head_text (r : ClassRule) (s : Text) :
    ∀ c ∈ (r.text ++ s).head?, c = .char '.' := by
  rintro c ⟨⟩
  rfl

theorem allMatches_written (h : Written rules css) :
    Text.allMatches classRule? css = rules.map ClassRule.found := by
  induction h with
  | @none s _ hopen =>
    have hplain := Text.allMatches_append (no_rule_before (t := []) hopen (by simp))
    rw [List.append_nil, Text.allMatches_nil] at hplain
    exact hplain
  | @more sep s r rules _ hopen _ ih =>
    rw [Text.allMatches_append (no_rule_before hopen (r.head_text s)),
      Text.allMatches_found r.text_ne_nil (classRule?_text r s), ih]
    rfl

/-- Without the rules, the spacing is left. -/
theorem Written.exists_replaced (h : Written rules css) :
    ∃ t, Replaced classRule? (fun _ => []) css t ∧ Spacing t := by
  induction h with
  | @none s hs hopen =>
    have hplains := Replaced.plains (f := fun _ => []) (no_rule_before (t := []) hopen (by simp)) .nil
    rw [List.append_nil] at hplains
    exact ⟨s, hplains, hs⟩
  | @more sep s r rules hsep hopen _ ih =>
    obtain ⟨t, ht, hspacing⟩ := ih
    exact ⟨sep ++ t, .plains (no_rule_before hopen (r.head_text s))
      (.found r.text_ne_nil (classRule?_text r s) ht), hsep.append hspacing⟩

/-- The names in a list that stand there before, in order. -/
def redefinitions (names : List Text) : List Text :=
  (names.zipIdx.filter fun entry => (names.take entry.2).contains entry.1).map Prod.fst

theorem repeated_concat (seen names : List Text) (name : Text) :
    repeated seen (names ++ [name]) =
      repeated seen names ++ if name ∈ seen ∨ name ∈ names then [name] else [] := by
  induction names generalizing seen with
  | nil => simp [repeated]
  | cons other names ih =>
    rw [List.cons_append, repeated, repeated]
    by_cases hother : other ∈ seen
    · rw [if_pos hother, if_pos hother, ih, List.cons_append]
      have hmem : name ∈ seen ∨ name ∈ names ↔ name ∈ seen ∨ name ∈ other :: names := by
        rw [List.mem_cons]
        constructor
        · rintro (h | h)
          · exact .inl h
          · exact .inr (.inr h)
        · rintro (h | rfl | h)
          · exact .inl h
          · exact .inl hother
          · exact .inr h
      simp only [hmem]
    · rw [if_neg hother, if_neg hother, ih]
      simp only [List.mem_cons, or_assoc, or_left_comm]

theorem redefinitions_concat (names : List Text) (name : Text) :
    redefinitions (names ++ [name]) =
      redefinitions names ++ if name ∈ names then [name] else [] := by
  have hfront : names.zipIdx.filter (fun entry =>
      ((names ++ [name]).take entry.2).contains entry.1) =
        names.zipIdx.filter fun entry => (names.take entry.2).contains entry.1 := by
    apply List.filter_congr
    intro entry hentry
    have hlt : entry.2 < names.length := List.snd_lt_of_mem_zipIdx hentry
    rw [List.take_append_of_le_length hlt.le]
  have hlast : (names ++ [name]).take names.length = names := List.take_left
  rw [redefinitions, List.zipIdx_append, List.filter_append, hfront, List.map_append]
  apply congrArg
  by_cases h : name ∈ names
  · simp [h]
  · simp [h]

/-- A notice is given for each name that stood there before. -/
theorem repeated_eq (names : List Text) : repeated [] names = redefinitions names := by
  induction names using List.reverseRecOn with
  | nil => rfl
  | append_singleton names name ih =>
    rw [repeated_concat, redefinitions_concat, ih]
    simp

/-- **Every simple rule is found.**  The classes stand in the order in which they are first defined,
each with its last body, trimmed; one notice is given for each rule whose class was defined before,
in order, and none for anything else. -/
theorem components_written (h : Written rules css) :
    Record.names (components css).value = (rules.map ClassRule.name).eraseDups ∧
    (∀ before r after, rules = before ++ r :: after → r.name ∉ after.map ClassRule.name →
      Record.get? r.name (components css).value = some (Text.strip r.body)) ∧
    (components css).notices = (redefinitions (rules.map ClassRule.name)).map .redefined := by
  have hrules : classRules css = rules.map fun r => (r.name, Text.strip r.body) := by
    rw [classRules, allMatches_written h, List.map_map]
    rfl
  have hnames : (classRules css).map Prod.fst = rules.map ClassRule.name := by
    rw [hrules, List.map_map]
    rfl
  have hleftover : hasLeftover css = false := by
    obtain ⟨t, ht, hspacing⟩ := h.exists_replaced
    apply hasLeftover_of_spacing
    rwa [ht.eq]
  refine ⟨?_, ?_, ?_⟩
  · rw [components, Record.names_ofList, hnames]
  · rintro before r after rfl hafter
    rw [components, hrules, List.map_append, List.map_cons]
    apply Record.get?_ofList_last
    rw [List.map_map]
    exact hafter
  · rw [components, hnames, repeated_eq, hleftover]
    exact List.append_nil _

/-- Two definitions of a class, the first with a brace and a comment in its body, and a rule between
them, with comments before it and behind it. -/
theorem components_written_redefined :
    ∃ found, components ("/* .x \x7d */\n.btn \x7b a \x7b .b /* c \x7d.card\x7b\x7d" ++
        "/**/.btn\t\x7bx\x7d\n" : Text) = found ∧
      Record.names found.value = ["btn", "card"] ∧ Record.get? "btn" found.value = some "x" ∧
      found.notices = [.redefined "btn"] := by
  have hwritten : Written
      [{ name := "btn", gap := " ", body := " a \x7b .b /* c " },
        { name := "card", gap := [], body := [] }, { name := "btn", gap := "\t", body := "x" }]
      ("/* .x \x7d */\n.btn \x7b a \x7b .b /* c \x7d.card\x7b\x7d" ++
        "/**/.btn\t\x7bx\x7d\n" : Text) :=
    .more (@Spacing.comment " .x \x7d " "\n" (by decide) (.blank (by decide) .nil)) (by decide)
      (.more .nil (by decide)
        (.more (@Spacing.comment [] [] (by decide) .nil) (by decide)
          (.none (.blank (by decide) .nil) (by decide))))
  obtain ⟨hnames, hvalues, hnotices⟩ := components_written hwritten
  refine ⟨_, rfl, ?_, ?_, ?_⟩
  · rw [hnames]
    decide
  · exact hvalues [_, _] _ [] rfl (by simp)
  · rw [hnotices]
    decide

end TailwindUpgrade.Sheet
