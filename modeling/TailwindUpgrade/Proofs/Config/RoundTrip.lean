/-
TailwindUpgrade/Proofs/Config/RoundTrip.lean

Plain data as a configuration.  A configuration that is given as data is printed as the source of a
module, and that source is read like any other.  `IsConfig` says of which form the fields have to be
that a configuration knows about; all else may be any data, and no text in it, of whatever
characters, is taken for anything but a text.

Main result: such a configuration is read back as it was, every record in its order and without a
notice, but that each plugin is described by its name and its module (`read_printed`).
-/
import TailwindUpgrade.Config.Read
import TailwindUpgrade.Proofs.Config.Anchor
import TailwindUpgrade.Proofs.Config.Entries
import TailwindUpgrade.Proofs.Config.Schema

namespace TailwindUpgrade.Config

open Text (utf16 IsBasic)

/-! ### Configurations -/

/-- The theme of a configuration. -/
inductive IsTheme : Value → Prop
  | object {fields : Record Value} :
      MayHave "screens" IsScreens fields → MayHave "extend" IsExtend fields →
      IsTheme (.object fields)

/-- Plugins that are given by their modules. -/
inductive IsPlugins : Value → Prop
  | array (names : List Text) : IsPlugins (.array (names.map .str))

/-- The fields of a configuration that is plain data. -/
structure IsConfig (fields : Record Value) : Prop where
  data : (Value.object fields).IsData
  theme : MayHave "theme" IsTheme fields
  plugins : MayHave "plugins" IsPlugins fields
  daisy : MayHave "daisyui" IsDaisy fields

/-- A plugin by its name, which is its module. -/
def describedPlugin (plugin : Value) : Value := .object [("name", plugin), ("module", plugin)]

/-- A list of plugins, each of them described. -/
def describedPlugins : Value → Value
  | .array plugins => .array (plugins.map describedPlugin)
  | other => other

/-- What a field of a configuration is read as. -/
def describedField (field : Text × Value) : Text × Value :=
  (field.1, if field.1 = "plugins" then describedPlugins field.2 else field.2)

/-! ### Single values -/

variable {v : Value}

theorem strict_json (h : v.IsData) (label : Text) (depth : Nat) :
    strict label (v.json depth) = .silent (.ok v.utf16) := by
  have hread : Value.read (v.json depth) = .ok v.utf16 := Literal.read_json h depth
  rw [strict, hread]

theorem valueOrSource_json (h : v.IsData) (depth : Nat) :
    valueOrSource (v.json depth) = .ok v.utf16 := by
  have hread : Value.read (v.json depth) = .ok v.utf16 := Literal.read_json h depth
  rw [valueOrSource, hread]

theorem json_object_eq (fields : List (Text × Value)) (depth : Nat) :
    ∃ body, (Value.object fields).json depth = .char '\x7b' :: (body ++ [.char '\x7d']) := by
  rw [Value.json]
  exact Literal.container_eq '\x7b' '\x7d' depth _

theorem beginsWith_json_object (fields : List (Text × Value)) (depth : Nat) :
    Text.beginsWith "\x7b" ((Value.object fields).json depth) = true := by
  obtain ⟨body, hbody⟩ := json_object_eq fields depth
  rw [hbody]
  rfl

theorem IsText.utf16 (h : IsText v) : IsText v.utf16 := by
  cases h with
  | str text => exact .str _

/-- The parts of data are data. -/
theorem isData_of_get? {fields : Record Value} {name : Text} (h : (Value.object fields).IsData)
    (hget : Record.get? name fields = some v) : v.IsData := by
  cases h with
  | object _ _ h => exact h _ (Record.mem_of_get? hget)

/-- A field is found under the name that it has in UTF-16. -/
theorem get?_utf16 {fields : Record Value} (name : Text) (h : (Value.object fields).IsData)
    (hname : IsBasic name) :
    Record.get? name (Value.utf16Fields fields) = (Record.get? name fields).map Value.utf16 := by
  cases h with
  | object _ hscalar _ => exact Value.get?_utf16Fields hscalar hname

/-! ### Screens and typography -/

theorem screens_json (h : v.IsData) (hform : IsScreens v) (depth : Nat) :
    screens (v.json depth) = .silent (.ok (some v.utf16)) := by
  cases hform with
  | @object fields hwidths =>
    have hscreen : ∀ f ∈ fields, screen (utf16 f.1) f.2.utf16 = .silent (some f.2.utf16) := by
      intro f hf
      obtain ⟨width, hwidth⟩ : ∃ width, f.2.utf16 = .str width := by
        generalize f.2.utf16 = w, (hwidths f hf).utf16 = hw
        cases hw with
        | str text => exact ⟨text, rfl⟩
      rw [hwidth]
      rfl
    have hgathered := gathered_silent (fun f : Text × Value => (utf16 f.1, f.2.utf16)) hscreen
    rw [screens, strict_json h, Attempt.silent_andThen, Value.utf16, Value.utf16Fields_eq]
    exact congrArg (fun widths => Attempt.whole (widths.map fun fields => some (Value.object fields)))
      hgathered

theorem typography_json (h : v.IsData) (hform : IsTypography v) (depth : Nat) :
    typography (v.json depth) = .silent (.ok v.utf16) := by
  cases hform with
  | @object fields style css hstyle hcss =>
    -- no function begins with a brace
    have hsource : typographySource ((Value.object fields).json depth) =
        (Value.object fields).json depth := by
      obtain ⟨body, hbody⟩ := json_object_eq fields depth
      rw [hbody]
      rfl
    -- both names are ASCII, so they find in UTF-16 what they found before
    have hdefault : hasDefaultStyle (.object (Value.utf16Fields fields)) = true := by
      have hfound := get?_utf16 "DEFAULT" h (by decide)
      have hinner := get?_utf16 "css" (isData_of_get? h hstyle) (by decide)
      rw [hstyle] at hfound
      rw [hcss] at hinner
      simp [hasDefaultStyle, Value.field?, hfound, Value.utf16, hinner, Value.fields?]
    rw [typography, hsource, strict_json h, Attempt.silent_andThen, Value.utf16, typographyOf,
      if_pos hdefault]
    rfl

/-! ### Fields of data -/

section Fields

variable {fields : Record Value} {f : Text × Value} {name : Text}

theorem isData_of_mem (h : (Value.object fields).IsData) (hf : f ∈ fields) : f.2.IsData := by
  cases h with
  | object _ _ h => exact h f hf

theorem utf16_name_iff (name : Text) (h : (Value.object fields).IsData) (hf : f ∈ fields)
    (hname : IsBasic name) : utf16 f.1 = name ↔ f.1 = name := by
  cases h with
  | object _ hscalar _ => exact Text.utf16_eq_iff (hscalar f hf) hname

theorem MayHave.of_mem {P : Value → Prop} (hform : MayHave name P fields)
    (h : (Value.object fields).IsData) (hf : f ∈ fields) (hname : f.1 = name) : P f.2 := by
  cases h with
  | object hnames _ _ => exact hform _ (Record.get?_of_mem hnames (hname ▸ hf))

end Fields

/-! ### Themes -/

theorem extend_json (h : v.IsData) (hform : IsExtend v) (depth : Nat) :
    extend (v.json depth) = .silent (.ok v.utf16) := by
  cases hform with
  | @object fields htypography =>
    have hentries := entries_json h "theme.extend" depth extendField (fun f => f.2.utf16) ?_
    · rw [extend, if_pos (beginsWith_json_object fields depth), hentries, Value.utf16,
        Value.utf16Fields_eq]
      rfl
    · intro f hf
      have hdata := isData_of_mem h hf
      have hiff := utf16_name_iff "typography" h hf (by decide)
      rw [extendField]
      by_cases hname : f.1 = "typography"
      · rw [if_pos (hiff.2 hname), typography_json hdata (htypography.of_mem h hf hname)]
        rfl
      · rw [if_neg (mt hiff.1 hname), valueOrSource_json hdata]
        rfl

theorem theme_json (h : v.IsData) (hform : IsTheme v) (depth : Nat) :
    theme (v.json depth) = .silent (.ok v.utf16) := by
  cases hform with
  | @object fields hscreens hextend =>
    have hentries := entries_json h "theme" depth themeField (fun f => f.2.utf16) ?_
    · rw [theme, if_pos (beginsWith_json_object fields depth), hentries, Value.utf16,
        Value.utf16Fields_eq]
      rfl
    · intro f hf
      have hdata := isData_of_mem h hf
      have hscreensIff := utf16_name_iff "screens" h hf (by decide)
      have hextendIff := utf16_name_iff "extend" h hf (by decide)
      rw [themeField]
      by_cases hname : f.1 = "screens"
      · rw [if_pos (hscreensIff.2 hname), screens_json hdata (hscreens.of_mem h hf hname)]
      rw [if_neg (mt hscreensIff.1 hname)]
      by_cases hname' : f.1 = "extend"
      · rw [if_pos (hextendIff.2 hname'), extend_json hdata (hextend.of_mem h hf hname')]
        rfl
      · rw [if_neg (mt hextendIff.1 hname'), valueOrSource_json hdata]
        rfl

/-! ### Plugins -/

/-- A plugin that is given by its module is described by it. -/
theorem describe_json {name : Text} (hname : name.IsScalar) (bound : Record Text) (depth : Nat) :
    describe bound ((Value.str name).json depth) = (describedPlugin (.str name)).utf16 := by
  have hread : Value.read ((Value.str name).json depth) = .ok (.str (utf16 name)) :=
    Literal.read_json (.str hname) depth
  have hquote : Text.beginsWith "\"" ((Value.str name).json depth) = true := rfl
  have hentry : stringOf? ((Value.str name).json depth) = some (utf16 name) := by
    rw [stringOf?, if_pos (by rw [hquote, Bool.or_true]), hread]
  rw [describe, hentry]
  rfl

theorem plugins_json (h : v.IsData) (hform : IsPlugins v) (bound : Record Text) (depth : Nat) :
    plugins bound (v.json depth) = .silent (some (describedPlugins v).utf16) := by
  cases hform with
  | array names =>
    have hbegins : Text.beginsWith "[" ((Value.array (names.map .str)).json depth) = true := by
      obtain ⟨body, hbody⟩ := Literal.container_eq '[' ']' depth
        (Value.jsonItems (depth + 1) (names.map .str))
      show Text.beginsWith "[" (Value.container [.char '['] [.char ']'] depth _) = true
      rw [hbody]
      rfl
    have hdescribed : ((names.map .str).map (Value.json (depth + 1))).map (describe bound) =
        Value.utf16Items ((names.map .str).map describedPlugin) := by
      cases h with
      | array h =>
        simp only [Value.utf16Items_eq, List.map_map]
        apply List.map_congr_left
        intro name hname
        have hdata := h (.str name) (List.mem_map_of_mem hname)
        cases hdata with
        | str hscalar => exact describe_json hscalar bound (depth + 1)
    rw [plugins, if_pos hbegins, Literal.elements_json h]
    exact congrArg (fun items => Reported.silent (some (Value.array items))) hdescribed

/-! ### Settings of daisyUI -/

theorem daisyThemes_utf16 {settings : Record Value} {themes : Value} (hform : IsThemes themes)
    (hget : Record.get? "themes" settings = some themes.utf16) :
    daisyThemes settings = .silent themes.utf16 := by
  rw [daisyThemes, hget]
  cases hform with
  | all b => rfl
  | one name => rfl
  | list items => rfl

theorem daisy_json (h : v.IsData) (hform : IsDaisy v) (depth : Nat) :
    daisy (v.json depth) = .silent (.ok v.utf16) := by
  cases hform with
  | @object fields themes hget hthemes hdark =>
    have hfound := get?_utf16 "themes" h (by decide)
    rw [hget, Option.map_some] at hfound
    have hcheck : checkDarkTheme (Value.utf16Fields fields) =
        .silent (Value.utf16Fields fields) := by
      rw [checkDarkTheme, get?_utf16 _ h (by decide)]
      cases hdarkTheme : Record.get? "darkTheme" fields with
      | none => rfl
      | some theme =>
        cases hdark _ hdarkTheme with
        | str text => rfl
    rw [daisy, strict_json h, Attempt.silent_andThen, Value.utf16, daisyOf,
      daisyThemes_utf16 hthemes hfound, Reported.silent_andThen]
    -- the themes are written over themselves
    rw [Record.set_eq_self hfound, hcheck]
    rfl

/-! ### Configurations as data -/

theorem field_json {fields : Record Value} (h : IsConfig fields) (bound : Record Text) (depth : Nat)
    {f : Text × Value} (hf : f ∈ fields) :
    field bound (utf16 f.1) (f.2.json depth) =
      .silent (.ok (some (describedField f).2.utf16)) := by
  have hdata := isData_of_mem h.data hf
  have htheme := utf16_name_iff "theme" h.data hf (by decide)
  have hplugins := utf16_name_iff "plugins" h.data hf (by decide)
  have hdaisy := utf16_name_iff "daisyui" h.data hf (by decide)
  rw [field, describedField]
  by_cases hname : f.1 = "theme"
  · have hother : f.1 ≠ "plugins" := by rw [hname]; decide
    rw [if_pos (htheme.2 hname), if_neg hother, theme_json hdata (h.theme.of_mem h.data hf hname)]
    rfl
  rw [if_neg (mt htheme.1 hname)]
  by_cases hname : f.1 = "plugins"
  · rw [if_pos (hplugins.2 hname), if_pos hname,
      plugins_json hdata (h.plugins.of_mem h.data hf hname)]
    rfl
  rw [if_neg (mt hplugins.1 hname), if_neg hname]
  by_cases hname : f.1 = "daisyui"
  · rw [if_pos (hdaisy.2 hname), daisy_json hdata (h.daisy.of_mem h.data hf hname)]
    rfl
  · rw [if_neg (mt hdaisy.1 hname), valueOrSource_json hdata]
    rfl

/-- **A configuration of plain data comes back.**  Printed and read again, it has the fields it had,
in their order at every depth, with its plugins described; there is nothing to say about it.  Texts
are read in UTF-16, which tells all texts of characters apart. -/
theorem read_printed {fields : Record Value} (h : IsConfig fields) :
    read (printed (.object fields)) =
      .ok (.silent (.ok (Value.utf16Fields (fields.map describedField)))) := by
  obtain ⟨body, hbody⟩ := json_object_eq fields 0
  have hobject : objectSource? (printed (.object fields)) = some ((Value.object fields).json 0) := by
    have htail := objectSource?_exported " satisfies Config;\n" (by decide +kernel)
      (by decide +kernel) body
    rw [printed, hbody, List.append_assoc, List.cons_append, List.append_assoc]
    exact htail
  rw [read, hobject]
  apply congrArg Except.ok
  rw [Config.fields, entries_json h.data _ 0 _ _ fun f hf => field_json h _ 1 hf, Value.utf16Fields_eq,
    List.map_map]
  rfl

/-- Texts in a configuration that look like the end of one, or like no text at all. -/
theorem read_printed_code :
    read (printed (.object
      [("theme", .object [("screens", .object [("md", .str "\x7d satisfies Config;")])]),
       ("daisyui", .object [("themes", .bool true), ("'dark' // ...", .array [.int (-7), .null])]),
       ("plugins", .array [.str ['\"', '/', '*', 'é', '\\']])])) =
      .ok (.silent (.ok
        [("theme", .object [("screens", .object [("md", .str "\x7d satisfies Config;")])]),
         ("daisyui", .object [("themes", .bool true), ("'dark' // ...", .array [.int (-7), .null])]),
         ("plugins", .array [.object [("name", .str ['\"', '/', '*', 'é', '\\']),
          ("module", .str ['\"', '/', '*', 'é', '\\'])]])])) := by
  refine (read_printed ⟨?_, fun v hv => ?_, fun v hv => ?_, fun v hv => ?_⟩).trans rfl
  · have hscreens : (Value.object [("md", .str "\x7d satisfies Config;")]).IsData :=
      .object (by decide) (by decide) (List.forall_mem_singleton.2 (.str (by decide)))
    have hitems : ∀ item ∈ [Value.int (-7), .null], item.IsData :=
      List.forall_mem_cons.2 ⟨.int (by decide +kernel), List.forall_mem_singleton.2 .null⟩
    have hdaisy : (Value.object
        [("themes", .bool true), ("'dark' // ...", .array [.int (-7), .null])]).IsData :=
      .object (by decide) (by decide)
        (List.forall_mem_cons.2 ⟨.bool true, List.forall_mem_singleton.2 (.array hitems)⟩)
    refine .object (by decide) (by decide) (List.forall_mem_cons.2 ⟨?_, List.forall_mem_cons.2
      ⟨hdaisy, List.forall_mem_singleton.2 (.array (List.forall_mem_singleton.2 (.str (by decide))))⟩⟩)
    exact .object (by decide) (by decide) (List.forall_mem_singleton.2 hscreens)
  · obtain rfl := Option.some.inj hv
    refine .object (fun v hv => ?_) (fun v hv => nomatch hv)
    obtain rfl := Option.some.inj hv
    exact .object (List.forall_mem_singleton.2 (.str _))
  · obtain rfl := Option.some.inj hv
    exact .array [['\"', '/', '*', 'é', '\\']]
  · obtain rfl := Option.some.inj hv
    exact .object rfl (.all true) (fun v hv => nomatch hv)

end TailwindUpgrade.Config
