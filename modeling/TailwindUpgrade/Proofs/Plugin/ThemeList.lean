/-
TailwindUpgrade/Proofs/Plugin/ThemeList.lean

The declaration of daisyUI's themes drops no theme.  A theme of the list is a name with up to two
tags (`ListedTheme`).  What may be asked of the list is said without saying how it is built
(`ListsThemes`): the default theme and the dark one may be the same or not, the dark one may be
among the names or not, and any name may be there several times.

The list is the default theme, the dark one if it is another, and the other names but for the dark
one (`listedAs`).

Main result: the declaration of themes is such a list, written with commas (`themeList_lists`).
-/
import TailwindUpgrade.Proofs.Plugin.Daisy

namespace TailwindUpgrade.Plugin

variable {first : Text} {others : List Text} {dark : Option Text}

/-! ### Themes of a list -/

/-- A theme of the list, with its tags. -/
structure ListedTheme where
  name : Text
  isDefault : Bool
  prefersDark : Bool

namespace ListedTheme

/-- How a theme is written in the list. -/
def text (theme : ListedTheme) : Text :=
  let default : Text := if theme.isDefault then " --default" else []
  let dark : Text := if theme.prefersDark then " --prefersdark" else []
  theme.name ++ default ++ dark

/-- A theme without tags. -/
def plain (name : Text) : ListedTheme := ⟨name, false, false⟩

/-- A dark theme that is not the default. -/
def preferred (name : Text) : ListedTheme := ⟨name, false, true⟩

/-- Whether a theme has a tag. -/
def isTagged (theme : ListedTheme) : Bool := theme.isDefault || theme.prefersDark

theorem text_plain (name : Text) : (plain name).text = name := by
  show name ++ [] ++ [] = name
  rw [List.append_nil, List.append_nil]

theorem text_preferred (name : Text) : (preferred name).text = name ++ " --prefersdark" := by
  show name ++ [] ++ Text.ofString " --prefersdark" = name ++ Text.ofString " --prefersdark"
  rw [List.append_nil]

end ListedTheme

/-- A name by which a theme is known to be dark. -/
def IsDark (name : Text) : Prop := name = "dark" ∨ name = "night"

instance (name : Text) : Decidable (IsDark name) := inferInstanceAs (Decidable (_ ∨ _))

/-- The dark theme: the one that is set, unless that is empty, or else the first that is dark by its
name. -/
def darkName? (setting : Option Text) (names : List Text) : Option Text :=
  (setting.filter fun name => name ≠ []).or (names.find? fun name => IsDark name)

/-- The list names every theme.  The first name is listed first, and it alone is the default; the
dark theme is listed once, and it alone is preferred where the reader prefers dark; every other name
is listed as often as it is there; and the names without a tag keep their order. -/
structure ListsThemes (names : List Text) (dark : Option Text) (themes : List ListedTheme) :
    Prop where
  first : themes.head?.map ListedTheme.name = names.head?
  isDefault : ∀ i theme, themes[i]? = some theme → (theme.isDefault = true ↔ i = 0)
  prefersDark : ∀ theme ∈ themes, theme.prefersDark = true ↔ dark = some theme.name
  dark_once : ∀ name, dark = some name → (themes.map ListedTheme.name).count name = 1
  count : ∀ name, dark ≠ some name → (themes.map ListedTheme.name).count name = names.count name
  named : ∀ theme ∈ themes, theme.name ∈ names ∨ dark = some theme.name
  order : (themes.filter fun theme => !theme.isTagged).map ListedTheme.name =
    names.tail.filter fun name => dark ≠ some name

/-! ### The list as it is built -/

/-- The dark theme, unless it is the first one. -/
def darkBehind (first : Text) (dark : Option Text) : Option Text :=
  dark.filter fun name => name ≠ first

/-- The themes that are listed behind the default one. -/
def listedBehind (first : Text) (others : List Text) (dark : Option Text) : List ListedTheme :=
  (darkBehind first dark).toList.map .preferred ++
    (others.filter fun name => dark ≠ some name).map .plain

/-- The themes as they are listed. -/
def listedAs (first : Text) (others : List Text) (dark : Option Text) : List ListedTheme :=
  ⟨first, true, dark = some first⟩ :: listedBehind first others dark

theorem darkBehind_self (first : Text) : darkBehind first (some first) = none :=
  Option.filter_some_neg (decide_eq_false (not_not_intro rfl))

theorem darkBehind_of_ne (h : dark ≠ some first) : darkBehind first dark = dark := by
  cases dark with
  | none => rfl
  | some name =>
    apply Option.filter_some_pos
    exact decide_eq_true fun hname => h (congrArg some hname)

/-- Behind the default theme there are the dark one, if it is another, and themes without a tag. -/
theorem mem_listedBehind {theme : ListedTheme} :
    theme ∈ listedBehind first others dark ↔
      (∃ name, (dark = some name ∧ name ≠ first) ∧ theme = .preferred name) ∨
        ∃ name, (name ∈ others ∧ dark ≠ some name) ∧ theme = .plain name := by
  simp [listedBehind, darkBehind, Option.filter_eq_some_iff, eq_comm (b := theme)]

theorem map_name_listedAs :
    (listedAs first others dark).map ListedTheme.name =
      first :: ((darkBehind first dark).toList ++ others.filter fun name => dark ≠ some name) := by
  have hdark : ListedTheme.name ∘ ListedTheme.preferred = id := rfl
  have hplain : ListedTheme.name ∘ ListedTheme.plain = id := rfl
  rw [listedAs, listedBehind, List.map_cons, List.map_append, List.map_map, List.map_map, hdark,
    hplain, List.map_id, List.map_id]

theorem isDefault_listedAs (i : Nat) (theme : ListedTheme)
    (h : (listedAs first others dark)[i]? = some theme) : theme.isDefault = true ↔ i = 0 := by
  cases i with
  | zero =>
    rw [listedAs, List.getElem?_cons_zero, Option.some_inj] at h
    rw [← h]
    exact iff_of_true rfl rfl
  | succ i =>
    rw [listedAs, List.getElem?_cons_succ] at h
    apply iff_of_false
    · obtain ⟨_, -, rfl⟩ | ⟨_, -, rfl⟩ := mem_listedBehind.mp (List.mem_of_getElem? h)
      · exact Bool.false_ne_true
      · exact Bool.false_ne_true
    · exact Nat.succ_ne_zero i

theorem prefersDark_listedAs (theme : ListedTheme) (h : theme ∈ listedAs first others dark) :
    theme.prefersDark = true ↔ dark = some theme.name := by
  obtain rfl | h := List.mem_cons.mp h
  · exact decide_eq_true_iff
  · obtain ⟨name, ⟨hdark, -⟩, rfl⟩ | ⟨name, ⟨-, hdark⟩, rfl⟩ := mem_listedBehind.mp h
    · exact iff_of_true rfl hdark
    · exact iff_of_false Bool.false_ne_true hdark

/-- The dark theme is listed once: it is the default or comes behind it, and is left out of the
others. -/
theorem count_listedAs_dark (name : Text) (h : dark = some name) :
    ((listedAs first others dark).map ListedTheme.name).count name = 1 := by
  have hothers : (others.filter fun other => dark ≠ some other).count name = 0 := by
    apply List.count_eq_zero.mpr
    intro hmem
    exact of_decide_eq_true (List.mem_filter.mp hmem).2 h
  rw [map_name_listedAs, List.count_cons, List.count_append, hothers]
  by_cases hfirst : first = name
  · rw [h, ← hfirst, darkBehind_self, if_pos (beq_self_eq_true first)]
    rfl
  · have hne : dark ≠ some first := fun hd => hfirst (Option.some.inj (hd.symm.trans h))
    rw [darkBehind_of_ne hne, h, if_neg (fun hb => hfirst (beq_iff_eq.mp hb)), Option.toList_some,
      List.count_singleton_self]

/-- A theme that is not the dark one is listed as often as it is named. -/
theorem count_listedAs (name : Text) (h : dark ≠ some name) :
    ((listedAs first others dark).map ListedTheme.name).count name =
      (first :: others).count name := by
  have hothers : (others.filter fun other => dark ≠ some other).count name = others.count name :=
    List.count_filter (decide_eq_true h)
  have hdark : (darkBehind first dark).toList.count name = 0 := by
    apply List.count_eq_zero.mpr
    intro hmem
    exact h (Option.filter_eq_some_iff.mp (Option.mem_toList.mp hmem)).1
  rw [map_name_listedAs, List.count_cons, List.count_cons, List.count_append, hothers, hdark,
    Nat.zero_add]

theorem name_mem_of_listedAs (theme : ListedTheme) (h : theme ∈ listedAs first others dark) :
    theme.name ∈ first :: others ∨ dark = some theme.name := by
  obtain rfl | h := List.mem_cons.mp h
  · exact .inl List.mem_cons_self
  · obtain ⟨name, ⟨hdark, -⟩, rfl⟩ | ⟨name, ⟨hname, -⟩, rfl⟩ := mem_listedBehind.mp h
    · exact .inr hdark
    · exact .inl (List.mem_cons_of_mem first hname)

theorem filter_isTagged_listedBehind :
    (listedBehind first others dark).filter (fun theme => !theme.isTagged) =
      (others.filter fun name => dark ≠ some name).map .plain := by
  have hdark : ((darkBehind first dark).toList.map ListedTheme.preferred).filter
      (fun theme => !theme.isTagged) = [] := by
    apply List.filter_eq_nil_iff.mpr
    intro theme hmem
    obtain ⟨name, -, rfl⟩ := List.mem_map.mp hmem
    exact Bool.false_ne_true
  have hothers : ((others.filter fun name => dark ≠ some name).map ListedTheme.plain).filter
      (fun theme => !theme.isTagged) = (others.filter fun name => dark ≠ some name).map .plain := by
    apply List.filter_eq_self.mpr
    intro theme hmem
    obtain ⟨name, -, rfl⟩ := List.mem_map.mp hmem
    rfl
  rw [listedBehind, List.filter_append, hdark, hothers, List.nil_append]

theorem listsThemes_listedAs (first : Text) (others : List Text) (dark : Option Text) :
    ListsThemes (first :: others) dark (listedAs first others dark) where
  first := rfl
  isDefault := isDefault_listedAs
  prefersDark := prefersDark_listedAs
  dark_once := count_listedAs_dark
  count := count_listedAs
  named := name_mem_of_listedAs
  order := by
    have hplain : ListedTheme.name ∘ ListedTheme.plain = id := rfl
    rw [listedAs, List.filter_cons_of_neg Bool.false_ne_true, filter_isTagged_listedBehind,
      List.map_map, hplain, List.map_id, List.tail_cons]

/-! ### The declaration -/

theorem isOneOf_darkNames (name : Text) : isOneOf darkNames name = decide (IsDark name) := by
  rw [Bool.eq_iff_iff, isOneOf_iff, decide_eq_true_iff]
  simp [IsDark, darkNames]

theorem darkTheme?_eq (setting : Option Text) (names : List Text) :
    darkTheme? ((setting.map .str).getD .null) names = (darkName? setting names).map .str := by
  have hfind : isOneOf darkNames = fun name => decide (IsDark name) := funext isOneOf_darkNames
  rw [darkTheme?, darkName?, hfind]
  cases setting with
  | none => rfl
  | some setting =>
    cases setting with
    | nil => rfl
    | cons c setting => rfl

theorem any_isText (dark : Option Text) (name : Text) :
    (dark.map Value.str).any (isText name) = decide (dark = some name) := by
  cases dark with
  | none => rfl
  | some dark => simp [isText]

theorem map_text_listedBehind :
    (listedBehind first others dark).map ListedTheme.text =
      (darkBehind first dark).toList.map (fun name : Text => name ++ " --prefersdark") ++
        others.filter fun name => dark ≠ some name := by
  have hdark : ListedTheme.text ∘ ListedTheme.preferred =
      fun name : Text => name ++ " --prefersdark" := funext ListedTheme.text_preferred
  have hplain : ListedTheme.text ∘ ListedTheme.plain = id := funext ListedTheme.text_plain
  rw [listedBehind, List.map_append, List.map_map, List.map_map, hdark, hplain, List.map_id]

/-- The entries of the declaration are the themes that are listed, as they are written. -/
theorem themeEntries_eq (first : Text) (others : List Text) (dark : Option Text) :
    themeEntries first others (dark.map .str) =
      (listedAs first others dark).map ListedTheme.text := by
  have hothers : (others.filter fun name => !(dark.map Value.str).any (isText name)) =
      others.filter fun name => dark ≠ some name := by
    apply List.filter_congr
    intro name _
    rw [any_isText, decide_not]
  rw [listedAs, List.map_cons, map_text_listedBehind, themeEntries, hothers, any_isText]
  by_cases h : dark = some first
  · rw [if_pos (decide_eq_true h), h, darkBehind_self, ListedTheme.text, if_pos rfl,
      if_pos (decide_eq_true rfl), List.append_assoc]
    rfl
  · have hfirst : (⟨first, true, decide (dark = some first)⟩ : ListedTheme).text =
        first ++ " --default" := by
      rw [ListedTheme.text, if_pos rfl, if_neg (fun hd => h (of_decide_eq_true hd))]
      exact List.append_nil _
    rw [if_neg (fun hd => h (of_decide_eq_true hd)), darkBehind_of_ne h, hfirst, Option.toList_map,
      List.map_map]
    rfl

/-- **Themes are listed whole.**  The declaration of themes, of which there is one at least, lists
them all, whatever dark theme is set. -/
theorem themeList_lists (first : Text) (others : List Text) (setting : Option Text) :
    ∃ themes : List ListedTheme,
      themeList (first :: others) ((setting.map .str).getD .null) =
        "themes: " ++ List.intercalate ", " (themes.map ListedTheme.text) ++ ";" ∧
      ListsThemes (first :: others) (darkName? setting (first :: others)) themes := by
  refine ⟨listedAs first others (darkName? setting (first :: others)), ?_,
    listsThemes_listedAs first others _⟩
  rw [← themeEntries_eq, ← darkTheme?_eq]
  rfl

example : themeList ["dark", "light", "dark", "light"] .null =
    "themes: dark --default --prefersdark, light, light;" := by decide +kernel

end TailwindUpgrade.Plugin
