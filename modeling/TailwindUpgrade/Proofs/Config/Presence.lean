/-
TailwindUpgrade/Proofs/Config/Presence.lean

When a source holds a configuration.  The object is looked for without ever going back: it begins at
the first exported brace, and goes through the last closing brace that the type is named after.
Nothing is missed in that way.  No other brace stands between the words of an export and its brace,
so what is exported later stands behind the brace of the first export (`exists_firstMatch`), and its
end is one for the first object as well.

Main result: an object is found just if the source exports one and names the type behind it,
whatever stands before, in and behind that object (`isSome_objectSource?`).
-/
import TailwindUpgrade.Config.Read
import TailwindUpgrade.Proofs.Config.Anchor

namespace TailwindUpgrade.Config

open Text (AllBlank)

variable {s t rest body word source : Text}

/-! ### What a source has to hold -/

/-- The words of a default export. -/
inductive IsExport : Text → Prop where
  | words {gap blanks : Text} : AllBlank gap → gap ≠ [] → AllBlank blanks →
      IsExport (("export" : Text) ++ (gap ++ (("default" : Text) ++ blanks)))

/-- A text at the front of which the type of configurations is named. -/
inductive NamesType : Text → Prop where
  | words {blanks gap after : Text} : AllBlank blanks → AllBlank gap → gap ≠ [] →
      Text.beginsWithWord after = false →
      NamesType (blanks ++ (("satisfies" : Text) ++ (gap ++ (("Config" : Text) ++ after))))

/-- A source that exports an object of the type of configurations.  The text of the object, and that
before and behind it, may be any, with other exports and other ends in it. -/
def HoldsConfig (source : Text) : Prop :=
  ∃ before words inside tail, IsExport words ∧ NamesType tail ∧
    source = before ++ (words ++ .char '\x7b' :: (inside ++ .char '\x7d' :: tail))

/-! ### Words behind blanks -/

/-- A word that does not begin with a blank is found behind all blanks. -/
theorem after?_stripStart_eq_some_iff
    (hword : ∀ t, Text.stripStart (word ++ t) = word ++ t) :
    Text.after? word (Text.stripStart s) = some rest ↔
      ∃ blanks, AllBlank blanks ∧ s = blanks ++ (word ++ rest) := by
  rw [Text.after?_eq_some_iff]
  constructor
  · intro h
    rw [← h]
    exact Text.exists_stripStart s
  · rintro ⟨blanks, hblanks, rfl⟩
    exact (List.dropWhile_append_of_pos hblanks).trans (hword rest)

/-- The same, where one blank is needed at least. -/
theorem afterBlanks?_bind_eq_some_iff (hword : ∀ t, Text.stripStart (word ++ t) = word ++ t) :
    (Text.afterBlanks? s).bind (Text.after? word) = some rest ↔
      ∃ gap, AllBlank gap ∧ gap ≠ [] ∧ s = gap ++ (word ++ rest) := by
  rw [Option.bind_eq_some_iff]
  constructor
  · rintro ⟨t, hblank, hrest⟩
    obtain ⟨c, s, hc, rfl, rfl⟩ := Text.afterBlanks?_eq_some_iff.1 hblank
    obtain ⟨blanks, hblanks, rfl⟩ := (after?_stripStart_eq_some_iff hword).1 hrest
    exact ⟨c :: blanks, List.forall_mem_cons.2 ⟨hc, hblanks⟩, List.cons_ne_nil c blanks, rfl⟩
  · rintro ⟨gap, hgap, hne, rfl⟩
    obtain ⟨c, blanks, rfl⟩ := List.exists_cons_of_ne_nil hne
    obtain ⟨hc, hblanks⟩ := List.forall_mem_cons.1 hgap
    exact ⟨_, Text.afterBlanks?_eq_some_iff.2 ⟨c, _, hc, rfl, rfl⟩,
      (after?_stripStart_eq_some_iff hword).2 ⟨blanks, hblanks, rfl⟩⟩

/-! ### The two ends of an object -/

theorem exportStart?_eq_some_iff :
    exportStart? s = some ((), body) ↔
      ∃ words, IsExport words ∧ s = words ++ .char '\x7b' :: body := by
  have hstart : exportStart? s = (Text.after? "export" s).bind fun s =>
      ((Text.afterBlanks? s).bind (Text.after? "default")).bind fun s =>
        (Text.after? "\x7b" (Text.stripStart s)).map fun s => ((), s) := by
    simp only [exportStart?, Option.bind_eq_bind, Option.bind_assoc, Option.map_eq_bind]
    rfl
  rw [hstart]
  constructor
  · intro h
    obtain ⟨s₁, hexport, h₁⟩ := Option.bind_eq_some_iff.1 h
    obtain ⟨s₂, hdefault, h₂⟩ := Option.bind_eq_some_iff.1 h₁
    obtain ⟨s₃, hbrace, hbody⟩ := Option.map_eq_some_iff.1 h₂
    obtain rfl : s₃ = body := congrArg Prod.snd hbody
    obtain rfl := Text.after?_eq_some_iff.1 hexport
    obtain ⟨gap, hgap, hne, rfl⟩ := (afterBlanks?_bind_eq_some_iff fun _ => rfl).1 hdefault
    obtain ⟨blanks, hblanks, rfl⟩ := (after?_stripStart_eq_some_iff fun _ => rfl).1 hbrace
    refine ⟨_, .words hgap hne hblanks, ?_⟩
    simp only [List.append_assoc]
    rfl
  · rintro ⟨_, ⟨hgap, hne, hblanks⟩, rfl⟩
    simp only [List.append_assoc]
    have hbrace : Text.after? "\x7b" (Text.stripStart (_ ++ .char '\x7b' :: body)) = some body :=
      (after?_stripStart_eq_some_iff fun _ => rfl).2 ⟨_, hblanks, rfl⟩
    rw [Text.after?_eq_some_iff.2 rfl, Option.bind_some,
      (afterBlanks?_bind_eq_some_iff fun _ => rfl).2 ⟨_, hgap, hne, rfl⟩, Option.bind_some,
      hbrace]
    rfl

theorem namesConfigType_iff : namesConfigType s = true ↔ NamesType s := by
  have hnames : namesConfigType s =
      ((Text.after? "satisfies" (Text.stripStart s)).bind fun s =>
        (Text.afterBlanks? s).bind (Text.after? "Config")).any (!Text.beginsWithWord ·) := rfl
  rw [hnames, Option.any_eq_true]
  constructor
  · rintro ⟨after, h, hafter⟩
    obtain ⟨t, hsatisfies, hconfig⟩ := Option.bind_eq_some_iff.1 h
    obtain ⟨blanks, hblanks, rfl⟩ := (after?_stripStart_eq_some_iff fun _ => rfl).1 hsatisfies
    obtain ⟨gap, hgap, hne, rfl⟩ := (afterBlanks?_bind_eq_some_iff fun _ => rfl).1 hconfig
    exact .words hblanks hgap hne (by simpa using hafter)
  · rintro ⟨hblanks, hgap, hne, hafter⟩
    refine ⟨_, ?_, by rw [hafter]; rfl⟩
    rw [(after?_stripStart_eq_some_iff fun _ => rfl).2 ⟨_, hblanks, rfl⟩, Option.bind_some]
    exact (afterBlanks?_bind_eq_some_iff fun _ => rfl).2 ⟨_, hgap, hne, rfl⟩

/-- An end of an object is found just if there is one. -/
theorem isSome_throughLastEnd :
    (throughLastEnd body).isSome = true ↔
      ∃ inside tail, NamesType tail ∧ body = inside ++ .char '\x7d' :: tail := by
  constructor
  · intro h
    induction body with
    | nil => cases h
    | cons c body ih =>
      rw [throughLastEnd] at h
      cases hbody : throughLastEnd body with
      | some found =>
        obtain ⟨inside, tail, htype, rfl⟩ := ih (by rw [hbody]; rfl)
        exact ⟨c :: inside, tail, htype, rfl⟩
      | none =>
        simp only [hbody] at h
        split at h
        · next hend => exact ⟨[], body, namesConfigType_iff.1 hend.2, by rw [hend.1]; rfl⟩
        · cases h
  · rintro ⟨inside, tail, htype, rfl⟩
    obtain ⟨t, ht⟩ := exists_throughLastEnd (namesConfigType_iff.2 htype) inside
    rw [ht]
    rfl

/-! ### The first export -/

theorem IsExport.brace_notMem (h : IsExport word) : .char '\x7b' ∉ word := by
  obtain ⟨hgap, -, hblanks⟩ := h
  have hblank : ∀ {s : Text}, AllBlank s → .char '\x7b' ∉ s := by
    intro s hs hmem
    exact absurd (hs _ hmem) (by decide)
  have hexport : CodePoint.char '\x7b' ∉ ("export" : Text) := by decide
  have hdefault : CodePoint.char '\x7b' ∉ ("default" : Text) := by decide
  simp only [List.mem_append, not_or]
  exact ⟨hexport, hblank hgap, hdefault, hblank hblanks⟩

/-- What stands behind a character stands behind the first such character. -/
theorem suffix_of_notMem {c : CodePoint} (hs : c ∉ s) (h : c :: t <:+ s ++ c :: rest) :
    t <:+ rest := by
  induction s with
  | nil =>
    rcases List.suffix_cons_iff.1 h with h | h
    · exact (List.cons.inj h).2 ▸ List.suffix_rfl
    · exact (List.suffix_cons c t).trans h
  | cons d s ih =>
    rw [List.mem_cons, not_or] at hs
    obtain ⟨hd, hs⟩ := hs
    rcases List.suffix_cons_iff.1 h with h | h
    · exact absurd (List.cons.inj h).1 hd
    · exact ih hs h

/-- The first export leaves behind its brace all that a later one does. -/
theorem exists_firstMatch (hs : s <:+ source) (h : exportStart? s = some ((), body)) :
    ∃ first, Text.firstMatch exportStart? source = some ((), first) ∧ body <:+ first := by
  induction source with
  | nil =>
    obtain rfl := List.suffix_nil.1 hs
    cases h
  | cons c source ih =>
    rw [Text.firstMatch]
    cases hfirst : exportStart? (c :: source) with
    | none =>
      rcases List.suffix_cons_iff.1 hs with rfl | hs
      · rw [hfirst] at h
        cases h
      · exact ih hs
    | some hit =>
      obtain ⟨⟨⟩, first⟩ := hit
      obtain ⟨words, hwords, hsource⟩ := exportStart?_eq_some_iff.1 hfirst
      obtain ⟨words', -, rfl⟩ := exportStart?_eq_some_iff.1 h
      rw [hsource] at hs
      have hbrace := (List.suffix_append words' (.char '\x7b' :: body)).trans hs
      exact ⟨first, rfl, suffix_of_notMem hwords.brace_notMem hbrace⟩

/-- **An object is found just if the source holds a configuration.** -/
theorem isSome_objectSource? : (objectSource? source).isSome = true ↔ HoldsConfig source := by
  constructor
  · intro h
    obtain ⟨object, hobject⟩ := Option.isSome_iff_exists.1 h
    obtain ⟨⟨⟨⟩, body⟩, hfirst, hend⟩ := Option.bind_eq_some_iff.1 hobject
    obtain ⟨_, ⟨before, rfl⟩, hstart⟩ := Text.exists_of_firstMatch hfirst
    obtain ⟨words, hwords, rfl⟩ := exportStart?_eq_some_iff.1 hstart
    obtain ⟨through, hthrough, -⟩ := Option.map_eq_some_iff.1 hend
    obtain ⟨inside, tail, htype, rfl⟩ :=
      isSome_throughLastEnd.1 (Option.isSome_iff_exists.2 ⟨through, hthrough⟩)
    exact ⟨before, words, inside, tail, hwords, htype, rfl⟩
  · rintro ⟨before, words, inside, tail, hwords, htype, rfl⟩
    obtain ⟨first, hfirst, front, rfl⟩ := exists_firstMatch (List.suffix_append before _)
      (exportStart?_eq_some_iff.2 ⟨words, hwords, rfl⟩)
    -- the end of this object is one of what the first export leaves
    have hend : (throughLastEnd (front ++ (inside ++ .char '\x7d' :: tail))).isSome = true :=
      isSome_throughLastEnd.2 ⟨front ++ inside, tail, htype, (List.append_assoc _ _ _).symm⟩
    rw [objectSource?, hfirst, Option.bind_some, Option.isSome_map, hend]

instance (source : Text) : Decidable (HoldsConfig source) :=
  decidable_of_iff _ isSome_objectSource?

/-- A source is read as a configuration just if it holds one. -/
theorem exists_read_iff : (∃ found, read source = .ok found) ↔ HoldsConfig source := by
  rw [← isSome_objectSource?, read]
  cases objectSource? source with
  | none => simp
  | some object => simp

theorem read_of_not_holdsConfig (h : ¬HoldsConfig source) :
    read source = .error .noConfigObject := by
  have hnone : objectSource? source = none := by simpa [← isSome_objectSource?] using h
  rw [read, hnone]

end TailwindUpgrade.Config
