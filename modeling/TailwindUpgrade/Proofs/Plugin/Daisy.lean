/-
TailwindUpgrade/Proofs/Plugin/Daisy.lean

No setting of daisyUI disappears silently.  The settings are gone through four times: the entries of
the list of themes (`Sifted`), the settings themselves (`Carried`), the themes that are defined in
place (`Defined`), and the variables of each of those (`Declared`).  Each of the four is a relation
between what is gone through and what comes of it, with one rule for each kind of thing that may
come next.  A rule gives a line, or a notice, or neither where the thing is accounted for elsewhere.

Main result: what the block of daisyUI says, and the notices about it, are what comes of the four,
each in its place (`daisy_accounted`).
-/
import TailwindUpgrade.Plugin.Daisy
import TailwindUpgrade.Proofs.Config.Schema

namespace TailwindUpgrade.Plugin

open Config (MayHave IsThemes)

/-! ### What comes of the settings -/

/-- The entries of a list of themes are sifted: a text is a name, an object of one field that is an
object is a name with a theme that is defined in place, and everything else is refused. -/
inductive Sifted : List Value → List Text → List (Text × Record Value) → List Notice → Prop
  | nil : Sifted [] [] [] []
  | named {name : Text} {items : List Value} {names : List Text}
      {custom : List (Text × Record Value)} {refused : List Notice} :
      Sifted items names custom refused → Sifted (.str name :: items) (name :: names) custom refused
  | custom {name : Text} {theme : Record Value} {items : List Value} {names : List Text}
      {custom : List (Text × Record Value)} {refused : List Notice} :
      Sifted items names custom refused →
      Sifted (.object [(name, .object theme)] :: items) (name :: names) ((name, theme) :: custom)
        refused
  | single {name : Text} {value : Value} {items : List Value} {names : List Text}
      {custom : List (Text × Record Value)} {refused : List Notice} :
      (∀ theme, value ≠ .object theme) → Sifted items names custom refused →
      Sifted (.object [(name, value)] :: items) names custom
        (.themeWithoutVariables name :: refused)
  | other {item : Value} {items : List Value} {names : List Text}
      {custom : List (Text × Record Value)} {refused : List Notice} :
      (∀ name, item ≠ .str name) → (∀ name value, item ≠ .object [(name, value)]) →
      Sifted items names custom refused →
      Sifted (item :: items) names custom (.unusableTheme (Text.quoted (cssValue item)) :: refused)

/-- The themes are declared: in one line, unless there is a list of them in which no entry is left,
of which there is a notice. -/
inductive Themed (dark : Value) (names : List Text) :
    Option Value → List Text → List Notice → Prop
  | absent : Themed dark names none ["  themes: light --default, dark --prefersdark;"] []
  | all :
      Themed dark names (some (.bool true)) ["  themes: light --default, dark --prefersdark;"] []
  | off : Themed dark names (some (.bool false)) ["  themes: false;"] []
  | text {text : Text} : Themed dark names (some (.str text)) ["  themes: " ++ text ++ ";"] []
  | list {items : List Value} :
      names ≠ [] → Themed dark names (some (.array items)) ["  " ++ themeList names dark] []
  | empty {items : List Value} :
      names = [] → Themed dark names (some (.array items)) [] [.noThemes]

/-- The settings are carried over: the themes and the dark theme have been declared, three options
have a line each, and of every other one there is a notice that it is dropped. -/
inductive Carried : Record Value → List Text → List Notice → Prop
  | nil : Carried [] [] []
  | themes {key : Text} {value : Value} {settings : Record Value} {lines : List Text}
      {dropped : List Notice} :
      key ∈ themeSettings → Carried settings lines dropped →
      Carried ((key, value) :: settings) lines dropped
  | text {key text : Text} {settings : Record Value} {lines : List Text} {dropped : List Notice} :
      key ∈ keptOptions → Carried settings lines dropped →
      Carried ((key, .str text) :: settings)
        (("  " ++ key ++ ": " ++ Text.jsonString text ++ ";") :: lines) dropped
  | value {key : Text} {value : Value} {settings : Record Value} {lines : List Text}
      {dropped : List Notice} :
      key ∈ keptOptions → (∀ text, value ≠ .str text) → Carried settings lines dropped →
      Carried ((key, value) :: settings) (("  " ++ key ++ ": " ++ cssValue value ++ ";") :: lines)
        dropped
  | dropped {key : Text} {value : Value} {settings : Record Value} {lines : List Text}
      {dropped : List Notice} :
      key ∉ keptOptions → key ∉ themeSettings → Carried settings lines dropped →
      Carried ((key, value) :: settings) lines (.droppedOption key :: dropped)

/-- A key that is a variable of its own, and no colour. -/
def IsProperty (key : Text) : Prop := ("--" : Text) <+: key ∨ key = "font-family"

/-- The variables of a theme are declared: a spread gives a notice, the name of the theme and of its
parent give nothing, and every other variable gives a declaration. -/
inductive Declared (theme : Text) : Record Value → List Text → List Notice → Prop
  | nil : Declared theme [] [] []
  | spread {source : Text} {value : Value} {settings : Record Value} {lines : List Text}
      {spreads : List Notice} :
      Declared theme settings lines spreads →
      Declared theme (("..." ++ source, value) :: settings) lines
        (.themeSpread theme source :: spreads)
  | skipped {key : Text} {value : Value} {settings : Record Value} {lines : List Text}
      {spreads : List Notice} :
      key = "name" ∨ key = "parent" → Declared theme settings lines spreads →
      Declared theme ((key, value) :: settings) lines spreads
  | property {key : Text} {value : Value} {settings : Record Value} {lines : List Text}
      {spreads : List Notice} :
      IsProperty key → Declared theme settings lines spreads →
      Declared theme ((key, value) :: settings)
        (("  " ++ key ++ ": " ++ Theme.colorText (cssValue value) ++ ";") :: lines) spreads
  | color {key : Text} {value : Value} {settings : Record Value} {lines : List Text}
      {spreads : List Notice} :
      ¬ ("..." : Text) <+: key → ¬ IsProperty key → key ≠ "name" → key ≠ "parent" →
      Declared theme settings lines spreads →
      Declared theme ((key, value) :: settings)
        (("  --color-" ++ key ++ ": " ++ Theme.colorText (cssValue value) ++ ";") :: lines) spreads

/-- The themes are defined: each in one block of its declarations, behind an empty line and a
comment that names it. -/
inductive Defined : List (Text × Record Value) → List Text → List Notice → Prop
  | nil : Defined [] [] []
  | block {name : Text} {theme : Record Value} {themes : List (Text × Record Value)}
      {declarations lines : List Text} {spreads others : List Notice} :
      Declared name theme declarations spreads → Defined themes lines others →
      Defined ((name, theme) :: themes)
        ("" :: ("/* daisyUI theme: " ++ name ++ " */") ::
          (Text.block [] "@theme" declarations ++ lines))
        (spreads ++ others)

/-- The entries of the list of themes, if there is one. -/
def listedThemes (settings : Record Value) : List Value :=
  match Record.get? "themes" settings with
  | some (.array items) => items
  | _ => []

/-! ### What is done with each of them -/

/-- Every entry of a list gives one name or one notice. -/
theorem Sifted.length {items : List Value} {names : List Text} {custom : List (Text × Record Value)}
    {refused : List Notice} (h : Sifted items names custom refused) :
    names.length + refused.length = items.length := by
  induction h with
  | nil => rfl
  | named _ ih | custom _ ih =>
    rw [List.length_cons, List.length_cons, ← ih]
    omega
  | single _ _ ih | other _ _ _ ih =>
    rw [List.length_cons, List.length_cons, ← ih]
    omega

/-- An option that keeps its meaning is not one of the theme settings. -/
theorem not_mem_themeSettings {key : Text} (h : key ∈ keptOptions) : key ∉ themeSettings := by
  have hapart : ∀ key ∈ keptOptions, key ∉ themeSettings := by decide
  exact hapart key h

/-- Every setting but the themes and the dark theme gives one line or one notice. -/
theorem Carried.length {settings : Record Value} {lines : List Text} {dropped : List Notice}
    (h : Carried settings lines dropped) :
    lines.length + dropped.length = settings.countP fun s => s.1 ∉ themeSettings := by
  induction h with
  | nil => rfl
  | themes hkey _ ih =>
    rw [List.countP_cons_of_neg (by simpa using hkey), ih]
  | text hkey _ ih | value hkey _ _ ih =>
    rw [List.countP_cons_of_pos (by simpa using not_mem_themeSettings hkey), List.length_cons, ← ih]
    omega
  | dropped _ hkey _ ih =>
    rw [List.countP_cons_of_pos (by simpa using hkey), List.length_cons, ← ih]
    omega

theorem sifted (items : List Value) :
    Sifted items ((items.map ThemeEntry.ofValue).filterMap ThemeEntry.name?)
      ((items.map ThemeEntry.ofValue).filterMap ThemeEntry.custom?)
      ((items.map ThemeEntry.ofValue).filterMap ThemeEntry.notice?) := by
  induction items with
  | nil => exact .nil
  | cons item items ih =>
    rw [List.map_cons]
    unfold ThemeEntry.ofValue
    split
    · exact .named ih
    · exact .custom ih
    · next hsingle =>
      exact .single hsingle ih
    · next hname _ hsingle => exact .other hname hsingle ih

theorem isOneOf_iff {texts : List Text} {text : Text} :
    isOneOf texts text = true ↔ text ∈ texts := by
  simp [isOneOf]

theorem isSpread_iff {key : Text} : isSpread key = true ↔ ("..." : Text) <+: key :=
  List.isPrefixOf_iff_prefix

theorem isProperty_iff {key : Text} :
    (Text.beginsWith "--" key || key = "font-family") = true ↔ IsProperty key := by
  rw [Bool.or_eq_true, decide_eq_true_iff, IsProperty, Text.beginsWith, List.isPrefixOf_iff_prefix]

theorem isDropped_iff {key : Text} :
    isDropped key = true ↔ key ∉ keptOptions ∧ key ∉ themeSettings := by
  rw [isDropped, Bool.not_eq_true', Bool.eq_false_iff, Ne, isOneOf_iff, List.mem_append, not_or]

theorem themed (dark : Value) {settings : Record Value} (h : MayHave "themes" IsThemes settings) :
    let themes := (Record.get? "themes" settings).getD (.bool true)
    let names := (themeEntriesOf themes).filterMap ThemeEntry.name?
    ∃ missing, Themed dark names (Record.get? "themes" settings)
        ((themesLine? themes dark).toList.map fun line => ("  " : Text) ++ line) missing ∧
      themeNotices themes =
        (themeEntriesOf themes).filterMap ThemeEntry.notice? ++ missing := by
  cases hthemes : Record.get? "themes" settings with
  | none => exact ⟨[], .absent, rfl⟩
  | some themes =>
    cases h themes hthemes with
    | all b =>
      cases b with
      | true => exact ⟨[], .all, rfl⟩
      | false => exact ⟨[], .off, rfl⟩
    | one text => exact ⟨[], .text, rfl⟩
    | list items =>
      simp only [Option.getD_some, themeEntriesOf, themesLine?, themeNotices]
      generalize hnames : (items.map ThemeEntry.ofValue).filterMap ThemeEntry.name? = names
      cases names with
      | nil => exact ⟨_, .empty rfl, rfl⟩
      | cons name names => exact ⟨[], .list (List.cons_ne_nil name names), rfl⟩

theorem optionLine?_of_mem {key : Text} (value : Value) (h : key ∈ keptOptions) :
    optionLine? (key, value) =
      some ("  " ++ key ++ ": " ++
        (match value with | .str text => Text.jsonString text | other => cssValue other) ++ ";") :=
  if_pos (isOneOf_iff.2 h)

theorem optionLine?_of_not_mem {key : Text} (value : Value) (h : key ∉ keptOptions) :
    optionLine? (key, value) = none :=
  if_neg (mt isOneOf_iff.1 h)

theorem carried (settings : Record Value) :
    Carried settings (settings.filterMap optionLine?)
      ((settings.filter fun s => isDropped s.1).map (.droppedOption ·.1)) := by
  induction settings with
  | nil => exact .nil
  | cons setting settings ih =>
    obtain ⟨key, value⟩ := setting
    by_cases hkept : key ∈ keptOptions
    · have hdropped : ¬ isDropped key = true := fun h => (isDropped_iff.1 h).1 hkept
      rw [List.filterMap_cons_some (optionLine?_of_mem value hkept), List.filter_cons,
        if_neg hdropped]
      cases value with
      | str text => exact .text hkept ih
      | _ => exact .value hkept nofun ih
    · rw [List.filterMap_cons_none (optionLine?_of_not_mem value hkept)]
      by_cases hthemes : key ∈ themeSettings
      · have hdropped : ¬ isDropped key = true := fun h => (isDropped_iff.1 h).2 hthemes
        rw [List.filter_cons, if_neg hdropped]
        exact .themes hthemes ih
      · have hdropped : isDropped key = true := isDropped_iff.2 ⟨hkept, hthemes⟩
        rw [List.filter_cons, if_pos hdropped, List.map_cons]
        exact .dropped hkept hthemes ih

theorem variableLine?_of_isSpread {key : Text} (value : Value) (h : isSpread key = true) :
    variableLine? (key, value) = none :=
  if_pos h

theorem variableLine?_of_isProperty {key : Text} (value : Value)
    (hspread : ¬ isSpread key = true) (h : IsProperty key) :
    variableLine? (key, value) =
      some ("  " ++ key ++ ": " ++ Theme.colorText (cssValue value) ++ ";") :=
  (if_neg hspread).trans (if_pos (isProperty_iff.2 h))

/-- A variable that is none of its own is a colour, if it is not the name of the theme or of its
parent. -/
theorem variableLine?_of_not_isProperty {key : Text} (value : Value)
    (hspread : ¬ isSpread key = true) (h : ¬ IsProperty key) :
    variableLine? (key, value) =
      if key = "name" ∨ key = "parent" then none
      else some ("  --color-" ++ key ++ ": " ++ Theme.colorText (cssValue value) ++ ";") := by
  rw [variableLine?, if_neg hspread, if_neg (mt isProperty_iff.1 h)]
  simp only [Bool.or_eq_true, decide_eq_true_eq]

theorem declared (theme : Text) (settings : Record Value) :
    Declared theme settings (settings.filterMap variableLine?)
      ((settings.filter fun v => isSpread v.1).map fun v => .themeSpread theme (v.1.drop 3)) := by
  induction settings with
  | nil => exact .nil
  | cons setting settings ih =>
    obtain ⟨key, value⟩ := setting
    by_cases hspread : isSpread key = true
    · rw [List.filterMap_cons_none (variableLine?_of_isSpread value hspread), List.filter_cons,
        if_pos hspread, List.map_cons]
      obtain ⟨source, rfl⟩ := isSpread_iff.1 hspread
      exact .spread ih
    rw [List.filter_cons, if_neg hspread]
    by_cases hproperty : IsProperty key
    · rw [List.filterMap_cons_some (variableLine?_of_isProperty value hspread hproperty)]
      exact .property hproperty ih
    have hline := variableLine?_of_not_isProperty value hspread hproperty
    by_cases hskipped : key = "name" ∨ key = "parent"
    · rw [List.filterMap_cons_none (hline.trans (if_pos hskipped))]
      exact .skipped hskipped ih
    · rw [List.filterMap_cons_some (hline.trans (if_neg hskipped))]
      rw [not_or] at hskipped
      exact .color (mt isSpread_iff.2 hspread) hproperty hskipped.1 hskipped.2 ih

theorem defined (themes : List (Text × Record Value)) :
    Defined themes (themeBlocks themes).value (themeBlocks themes).notices := by
  induction themes with
  | nil => exact .nil
  | cons theme themes ih =>
    obtain ⟨name, settings⟩ := theme
    exact .block (declared name settings) ih

/-! ### The block of daisyUI -/

theorem themeEntriesOf_listedThemes (settings : Record Value) :
    themeEntriesOf ((Record.get? "themes" settings).getD (.bool true)) =
      (listedThemes settings).map ThemeEntry.ofValue := by
  rw [listedThemes]
  cases Record.get? "themes" settings with
  | none => rfl
  | some themes => cases themes <;> rfl

/-- **No setting of daisyUI disappears silently.**  The entries of the list of themes, the themes
as a whole, the settings and the themes defined in place have their lines and their notices, and
there are no others. -/
theorem daisy_accounted {config : Value} {settings : Record Value}
    (hsettings : config.field? "daisyui" = some (.object settings))
    (hthemes : MayHave "themes" IsThemes settings) :
    ∃ names custom refused themes missing options dropped definitions spreads,
      Sifted (listedThemes settings) names custom refused ∧
      names.length + refused.length = (listedThemes settings).length ∧
      Themed ((Record.get? "darkTheme" settings).getD .null) names
        (Record.get? "themes" settings) themes missing ∧
      Carried settings options dropped ∧
      (options.length + dropped.length = settings.countP fun s => s.1 ∉ themeSettings) ∧
      Defined custom definitions spreads ∧
      (daisyBlock config).value =
        Text.block [] "@plugin \"daisyui\"" (themes ++ options) ++ definitions ∧
      (daisyBlock config).notices = refused ++ missing ++ dropped ++ spreads := by
  have hblock : daisyBlock config = daisyBlockOf settings := by
    rw [daisyBlock, hsettings]
  have hentries := themeEntriesOf_listedThemes settings
  obtain ⟨missing, hthemed, hnotices⟩ :=
    themed ((Record.get? "darkTheme" settings).getD .null) hthemes
  rw [hentries] at hthemed hnotices
  have hsifted := sifted (listedThemes settings)
  have hcarried := carried settings
  refine ⟨_, _, _, _, missing, _, _, _, _, hsifted, hsifted.length, hthemed, hcarried,
    hcarried.length, defined _, ?_, ?_⟩
  · rw [hblock, daisyBlockOf, hentries]
  · rw [hblock, daisyBlockOf, hentries, hnotices]

/-- A list with a name, a theme of its own that spreads another and three entries that are refused,
and settings of every kind. -/
theorem daisy_accounted_mixed :
    let theme : Record Value := [("...base", .null), ("primary", .str "#f0f"),
      ("name", .str "Mine"), ("--rounded-box", .str "1rem")]
    let themes : List Value := [.str "light", .object [("mine", .object theme)],
      .object [("odd", .int 3)], .array [.str "a"], .object []]
    let settings : Record Value := [("themes", .array themes), ("prefix", .str "d-"),
      ("darkTheme", .str "mine"), ("styled", .bool true), ("logs", .bool false)]
    let config : Value := .object [("daisyui", .object settings)]
    (∃ names custom refused, Sifted (listedThemes settings) names custom refused ∧
      names.length + refused.length = 5) ∧
    daisyBlock config = ⟨["@plugin \"daisyui\" \x7b",
        "  themes: light --default, mine --prefersdark;", "  prefix: \"d-\";", "  logs: false;",
        "\x7d", "", "/* daisyUI theme: mine */", "@theme \x7b", "  --color-primary: #f0f;",
        "  --rounded-box: 1rem;", "\x7d"],
      [.themeWithoutVariables "odd", .unusableTheme "'a'", .unusableTheme "'\x7b\x7d'",
        .droppedOption "styled", .themeSpread "mine" "base"]⟩ := by
  intro theme themes settings config
  have hthemes : MayHave "themes" IsThemes settings := by
    rintro _ ⟨⟩
    exact .list _
  obtain ⟨names, custom, refused, -, -, -, -, -, -, hsifted, hlength, -⟩ :=
    @daisy_accounted config settings rfl hthemes
  exact ⟨⟨names, custom, refused, hsifted, hlength⟩, by decide +kernel⟩

end TailwindUpgrade.Plugin
