/-
TailwindUpgrade/Proofs/Config/Conformance.lean

The form of a configuration that was read.  The source may be any text: keys may be repeated,
quoted, spread or without a value, and values may be malformed.  Each field is found under a key
because an entry with that key gave it (`mayHave_entries`), so it is enough that a part which is
looked up later is of the right form whenever its reading gives something.

Main result: every configuration that is read conforms to what is looked up in it later
(`read_conforms`).
-/
import TailwindUpgrade.Config.Read
import TailwindUpgrade.Proofs.Config.Entries
import TailwindUpgrade.Proofs.Config.Schema

namespace TailwindUpgrade.Config

/-! ### What was read -/

/-- What extends a theme: an object, or the source of anything else. -/
inductive IsReadExtend : Value → Prop
  | source (raw : Text) : IsReadExtend (.expr raw)
  | object {v : Value} : IsExtend v → IsReadExtend v

/-- A theme: an object, or the source of anything else. -/
inductive IsReadTheme : Value → Prop
  | source (raw : Text) : IsReadTheme (.expr raw)
  | object {fields : Record Value} :
      MayHave "screens" IsScreens fields → MayHave "extend" IsReadExtend fields →
      IsReadTheme (.object fields)

/-- A plugin with its name, and with its module if that is known. -/
inductive IsDescription : Value → Prop
  | object {fields : Record Value} {name : Text} :
      Record.get? "name" fields = some (.str name) → MayHave "module" IsText fields →
      IsDescription (.object fields)

/-- Plugins, each of them described. -/
inductive IsDescriptions : Value → Prop
  | array {plugins : List Value} :
      (∀ plugin ∈ plugins, IsDescription plugin) → IsDescriptions (.array plugins)

/-- The fields of a configuration, those of a known form having that form. -/
structure Conforms (config : Record Value) : Prop where
  theme : MayHave "theme" IsReadTheme config
  plugins : MayHave "plugins" IsDescriptions config
  daisy : MayHave "daisyui" IsDaisy config

/-! ### Entries -/

/-- What is found under a name was given by an entry with that key, whichever it was. -/
theorem mayHave_entries {name label raw : Text} {P : Value → Prop} {fields : Record Value}
    {attempt : Text → Text → Attempt (Option Value)}
    (hfields : (entries label raw attempt).value = .ok fields)
    (h : ∀ source v, (attempt name source).value = .ok (some v) → P v) :
    MayHave name P fields := by
  intro v hv
  rw [eq_ofList_of_settled hfields] at hv
  obtain ⟨source, -, hgiven⟩ := mem_gather (Record.mem_of_get?_ofList hv)
  exact h source v hgiven

theorem eq_ok_of_map_some {attempt : Attempt Value} {v : Value}
    (h : (attempt.map some).value = .ok (some v)) : attempt.value = .ok v := by
  obtain ⟨w, hw, hsome⟩ := Attempt.map_eq_ok.1 h
  rw [hw, Option.some.inj hsome]

/-! ### Screens and typography -/

theorem isText_of_screen {name : Text} {value width : Value}
    (h : (screen name value).value = some width) : IsText width := by
  unfold screen at h
  split at h
  · obtain rfl := Option.some.inj h
    exact .str _
  · obtain rfl := Option.some.inj h
    exact .str _
  · obtain rfl := Option.some.inj h
    exact .str _
  · split at h
    · obtain rfl := Option.some.inj h
      exact .str _
    · cases h

theorem isScreens_of_screens {raw : Text} {v : Value} (h : (screens raw).value = .ok (some v)) :
    IsScreens v := by
  obtain ⟨value, -, hvalue⟩ := Attempt.andThen_eq_ok.1 h
  have hscreens : (screensOf raw value).value = some v := Except.ok.inj hvalue
  unfold screensOf at hscreens
  split at hscreens
  · cases hscreens
  · obtain rfl := Option.some.inj hscreens
    refine .object fun field hfield => ?_
    obtain ⟨⟨name, value⟩, -, hgiven⟩ := List.mem_filterMap.1 hfield
    obtain ⟨width, hwidth, rfl⟩ := Option.map_eq_some_iff.1 hgiven
    exact isText_of_screen hwidth
  · cases hscreens

theorem isTypography_noTypography : IsTypography noTypography := .object rfl rfl

theorem isTypography_of_hasDefaultStyle {fields : Record Value}
    (h : hasDefaultStyle (.object fields) = true) : IsTypography (.object fields) := by
  rw [hasDefaultStyle] at h
  obtain ⟨css, hcss⟩ := Option.isSome_iff_exists.1 h
  obtain ⟨inner, hinner, hfields⟩ := Option.bind_eq_some_iff.1 hcss
  obtain ⟨style, hstyle, hfound⟩ := Option.bind_eq_some_iff.1 hinner
  cases style with
  | object style =>
    cases inner with
    | object inner => exact .object hstyle hfound
    | _ => cases hfields
  | _ => cases hfound

theorem isTypography_typographyOf (value : Value) : IsTypography (typographyOf value).value := by
  rw [typographyOf.eq_def]
  split
  · exact isTypography_noTypography
  · split
    · next h => exact isTypography_of_hasDefaultStyle h
    · exact isTypography_noTypography
  · exact isTypography_noTypography

theorem isTypography_of_typography {raw : Text} {v : Value} (h : (typography raw).value = .ok v) :
    IsTypography v := by
  obtain ⟨value, -, hvalue⟩ := Attempt.andThen_eq_ok.1 h
  obtain rfl := Except.ok.inj hvalue
  exact isTypography_typographyOf value

/-! ### Themes -/

theorem isReadExtend_of_extend {raw : Text} {v : Value} (h : (extend raw).value = .ok v) :
    IsReadExtend v := by
  rw [extend] at h
  split at h
  · obtain ⟨fields, hfields, rfl⟩ := Attempt.map_eq_ok.1 h
    refine .object (.object (mayHave_entries hfields fun source v hv => ?_))
    rw [extendField, if_pos rfl] at hv
    exact isTypography_of_typography (eq_ok_of_map_some hv)
  · obtain rfl := Except.ok.inj h
    exact .source raw

theorem isReadTheme_of_theme {raw : Text} {v : Value} (h : (theme raw).value = .ok v) :
    IsReadTheme v := by
  rw [theme] at h
  split at h
  · obtain ⟨fields, hfields, rfl⟩ := Attempt.map_eq_ok.1 h
    refine .object (mayHave_entries hfields fun source v hv => ?_)
      (mayHave_entries hfields fun source v hv => ?_)
    · rw [themeField, if_pos rfl] at hv
      exact isScreens_of_screens hv
    · rw [themeField, if_neg (by decide), if_pos rfl] at hv
      exact isReadExtend_of_extend (eq_ok_of_map_some hv)
  · obtain rfl := Except.ok.inj h
    exact .source raw

/-! ### Plugins -/

theorem isDescription_describe (bound : Record Text) (expression : Text) :
    IsDescription (describe bound expression) := by
  rw [describe]
  split
  · next text _ =>
    refine .object rfl fun v hv => ?_
    obtain rfl := Option.some.inj hv
    exact .str text
  · refine .object rfl fun v hv => ?_
    cases hmodule : moduleOf? bound expression with
    | none =>
      rw [hmodule] at hv
      cases hv
    | some module =>
      rw [hmodule] at hv
      obtain rfl := Option.some.inj hv
      exact .str module

theorem isDescriptions_of_plugins {bound : Record Text} {raw : Text} {v : Value}
    (h : (plugins bound raw).value = some v) : IsDescriptions v := by
  rw [plugins] at h
  split at h
  · obtain rfl := Option.some.inj h
    refine .array (List.forall_mem_map.2 fun source _ => ?_)
    exact isDescription_describe bound source
  · cases h

/-! ### Settings of daisyUI -/

theorem isThemes_daisyThemes (settings : Record Value) :
    IsThemes (daisyThemes settings).value := by
  rw [daisyThemes]
  split
  · exact .all _
  · exact .one _
  · exact .list _
  · exact .all true

/-- Settings with a list of themes keep it, and a dark theme among them only if it is a text. -/
theorem isDaisy_checkDarkTheme {settings : Record Value} {themes : Value}
    (hget : Record.get? "themes" settings = some themes) (hthemes : IsThemes themes) :
    IsDaisy (.object (checkDarkTheme settings).value) := by
  rw [checkDarkTheme]
  split
  · next hnone =>
    refine .object hget hthemes fun v hv => ?_
    rw [Reported.silent, hnone] at hv
    cases hv
  · next text htext =>
    refine .object hget hthemes fun v hv => ?_
    rw [Reported.silent, htext] at hv
    obtain rfl := Option.some.inj hv
    exact .str text
  · have hkept : Record.get? "themes" (Record.erase "darkTheme" settings) = some themes := by
      rw [Record.get?_erase_of_ne (by decide), hget]
    refine .object hkept hthemes fun v hv => ?_
    rw [Record.get?_erase_self] at hv
    cases hv

theorem isDaisy_defaultDaisy : IsDaisy defaultDaisy :=
  .object rfl (.all true) fun _ hv => nomatch hv

theorem isDaisy_daisyOf (value : Value) : IsDaisy (daisyOf value).value := by
  rw [daisyOf.eq_def]
  split
  · next settings =>
    exact isDaisy_checkDarkTheme (Record.get?_set_self _ _ _) (isThemes_daisyThemes settings)
  · exact isDaisy_defaultDaisy
  · exact isDaisy_defaultDaisy

theorem isDaisy_of_daisy {raw : Text} {v : Value} (h : (daisy raw).value = .ok v) : IsDaisy v := by
  obtain ⟨value, -, hvalue⟩ := Attempt.andThen_eq_ok.1 h
  obtain rfl := Except.ok.inj hvalue
  exact isDaisy_daisyOf value

/-! ### Configurations -/

theorem conforms_of_fields {bound : Record Text} {object : Text} {config : Record Value}
    (h : (fields bound object).value = .ok config) : Conforms config := by
  refine ⟨mayHave_entries h fun source v hv => ?_, mayHave_entries h fun source v hv => ?_,
    mayHave_entries h fun source v hv => ?_⟩
  · rw [field, if_pos rfl] at hv
    exact isReadTheme_of_theme (eq_ok_of_map_some hv)
  · rw [field, if_neg (by decide), if_pos rfl] at hv
    exact isDescriptions_of_plugins (Except.ok.inj hv)
  · rw [field, if_neg (by decide), if_neg (by decide), if_pos rfl] at hv
    exact isDaisy_of_daisy (eq_ok_of_map_some hv)

/-- **What is read has the form in which it is looked up.**  From whatever source a configuration is
read, its theme, its plugins and its settings of daisyUI are missing or of the form that the new
stylesheet is made from; what could not be read as that is replaced, kept as its source or left out.
-/
theorem read_conforms {source : Text} {found : Attempt (Record Value)} {config : Record Value}
    (h : read source = .ok found) (hconfig : found.value = .ok config) : Conforms config := by
  rw [read] at h
  split at h
  · cases h
  · obtain rfl := Except.ok.inj h
    exact conforms_of_fields hconfig

/-- Keys that are quoted, written again, spread or without a value, and values of which little can
be kept. -/
theorem read_conforms_repeated :
    ∃ (found : Attempt (Record Value)) (config : Record Value),
      read ("export default \x7btheme,'theme':\x7bscreens:\x7ba:1\x7d,screens:5,...b\x7d," ++
        "plugins:[...p,'z'],daisyui:\x7bdarkTheme,themes:3\x7d,plugins\x7d satisfies Config") =
          .ok found ∧
      found.value = .ok config ∧
      config = ([
        ("theme", .object [("screens", .object [("a", .str "1")]), ("...b", .expr "b")]),
        ("plugins", .array [.object [("name", .str "...p")],
          .object [("name", .str "z"), ("module", .str "z")]]),
        ("daisyui", .object [("themes", .bool true)])] : Record Value) ∧
      Conforms config := by
  refine ⟨⟨.ok _, [.themeNoObject "theme", .numericScreen "a" "1", .screensNoObject "5",
    .unsupportedThemes "3", .darkThemeNoText, .pluginsNoArray "plugins"]⟩, _,
    ?hread, rfl, rfl, read_conforms ?hread rfl⟩
  case hread => decide +kernel

end TailwindUpgrade.Config
