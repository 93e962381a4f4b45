/-
TailwindUpgrade/Proofs/Config/Naming.lean

Ways to name a plugin.  In the list of plugins, a module may be named in quotes of either kind, by a
call of `require`, or by a name that a statement before the configuration binds to it.

Main result: all of them say the same (`plugins_named`).  Each entry is described by the module that
it names, and what is made of the list depends on these modules alone: unless one of them is known
by its name, each is loaded in a block of its own.
-/
import TailwindUpgrade.Proofs.Config.Binding
import TailwindUpgrade.Proofs.Plugin.Block

namespace TailwindUpgrade.Config

open Literal (SelfContained Balanced Listed ReadAs Quoted)
open Text (Keyed Passes Unspaced)

/-- A plugin as it is named in the list. -/
inductive Mention where
  | single (module : Text)
  | double (module : Text)
  | call (module : Text)
  | bound (name : Text)

namespace Mention

/-- An entry of the list as it stands in a source. -/
def text : Mention → Text
  | single module => "'" ++ module ++ "'"
  | double module => "\"" ++ module ++ "\""
  | call module => "require('" ++ module ++ "')"
  | bound name => name

/-- What an entry is called by: what is in the quotes, or else its source. -/
def name : Mention → Text
  | single module | double module => module
  | mention => mention.text

/-- The description of a plugin with its module. -/
def descriptor (mention : Mention) (module : Text) : Value :=
  .object [("name", .str mention.name), ("module", .str module)]

end Mention

/-- A mention names a module. -/
inductive Names (statements : List Statement) : Mention → Text → Prop
  | single {module : Text} : IsModule module → Names statements (.single module) module
  | double {module : Text} : IsModule module → Names statements (.double module) module
  | call {module : Text} : IsModule module → Names statements (.call module) module
  | bound {name module : Text} :
      Statement.boundTo statements name = some module → Names statements (.bound name) module

/-- A text in which neither typography nor daisyUI is named. -/
def Ordinary (s : Text) : Prop := ¬ ("typography" : Text) <:+: s ∧ ¬ ("daisyui" : Text) <:+: s

instance (s : Text) : Decidable (Ordinary s) := inferInstanceAs (Decidable (_ ∧ _))

/-- A list of plugins as it stands in a source. -/
def listing (mentions : List Mention) : Text :=
  "[" ++ List.intercalate ", " (mentions.map Mention.text) ++ "]"

/-- The export of a configuration with a list of plugins. -/
def configuring (mentions : List Mention) : Text :=
  "export default \x7b plugins: " ++ listing mentions ++ " \x7d satisfies Config"

/-- A source with statements before the configuration. -/
def naming (statements : List Statement) (mentions : List Mention) : Text :=
  Statement.lines statements ++ configuring mentions

/-- The configuration with a description for each plugin. -/
def described (mentions : List Mention) (modules : List Text) : Record Value :=
  [("plugins", .array (List.zipWith Mention.descriptor mentions modules))]

variable {statements : List Statement} {mentions : List Mention} {modules : List Text}
  {mention : Mention} {module : Text}

/-! ### A mention by itself -/

theorem exists_of_boundTo {name : Text} (h : Statement.boundTo statements name = some module) :
    ∃ statement : Statement, statement.name = name ∧ statement.module = module := by
  have hlast : ∀ {list : List Statement}, Statement.lastModule name list = some module →
      ∃ statement : Statement, statement.name = name ∧ statement.module = module := by
    intro list hmodule
    obtain ⟨statement, hlast, rfl⟩ := Option.map_eq_some_iff.1 hmodule
    have hname := (List.mem_filter.1 (List.mem_of_getLast? hlast)).2
    exact ⟨statement, of_decide_eq_true hname, rfl⟩
  rcases Option.or_eq_some_iff.1 h with hrequired | ⟨-, himported⟩
  · exact hlast hrequired
  · exact hlast himported

theorem Names.isModule (h : Names statements mention module) : IsModule module := by
  cases h with
  | single hmodule | double hmodule | call hmodule => exact hmodule
  | bound hbound =>
    obtain ⟨statement, -, rfl⟩ := exists_of_boundTo hbound
    exact statement.isModule

theorem isIdentifier_of_boundTo {name : Text}
    (h : Statement.boundTo statements name = some module) : IsIdentifier name := by
  obtain ⟨statement, rfl, -⟩ := exists_of_boundTo h
  exact statement.isIdentifier

/-- The name of a module stands for itself in quotes. -/
theorem IsModule.quoted {q : CodePoint} (h : IsModule module)
    (hq : q = .char '\'' ∨ q = .char '\"') : Quoted q module module := by
  have hchars := h.chars
  clear h
  induction module with
  | nil => exact .nil
  | cons c module ih =>
    obtain ⟨hblank, hsingle, hdouble, hslash⟩ := isModuleChar_spec (hchars c List.mem_cons_self)
    have hne : c ≠ q := by
      rcases hq with rfl | rfl
      · exact hsingle
      · exact hdouble
    have hline : c = .char '\n' → q = .char '\x60' := by
      rintro rfl
      exact absurd hblank (by decide)
    exact .raw hslash hne hline (ih fun d hd => hchars d (List.mem_cons_of_mem c hd))

theorem Names.balanced (h : Names statements mention module) : Balanced [] mention.text := by
  cases h with
  | single hmodule => exact .string rfl (hmodule.quoted (.inl rfl)) .nil
  | double hmodule => exact .string rfl (hmodule.quoted (.inr rfl)) .nil
  | call hmodule =>
    have hstring : Balanced [.char ')'] (.char '\'' :: (module ++ .char '\'' :: [.char ')'])) :=
      .string rfl (hmodule.quoted (.inl rfl)) (.closer rfl .nil)
    have hcall : Balanced [] (("require" : Text) ++ .char '(' ::
        (.char '\'' :: (module ++ .char '\'' :: [.char ')']))) :=
      .keyParts (by decide +kernel) (.opener rfl hstring)
    have htext : (Mention.call module).text = ("require" : Text) ++ .char '(' ::
        (.char '\'' :: (module ++ .char '\'' :: [.char ')'])) := by
      simp [Mention.text, Text.ofString]
    rwa [htext]
  | bound hbound =>
    have hname := (isIdentifier_of_boundTo hbound).bareKey
    have hparts := Balanced.nil.keyParts hname.isKeyPart
    rwa [List.append_nil] at hparts

theorem Names.unspaced (h : Names statements mention module) : Unspaced mention.text := by
  cases h with
  | single hmodule | double hmodule | call hmodule =>
    rw [Mention.text, Text.unspaced_append, Text.unspaced_append]
    exact ⟨⟨by decide, hmodule.unspaced⟩, by decide⟩
  | bound hbound => exact (isIdentifier_of_boundTo hbound).unspaced

/-- A mention begins with a quote or with a character that begins an identifier. -/
theorem Names.exists_cons (h : Names statements mention module) :
    ∃ c r, mention.text = c :: r ∧ c ≠ .char '/' ∧ c ≠ .char '.' := by
  cases h with
  | single => exact ⟨.char '\'', _, rfl, by decide, by decide⟩
  | double => exact ⟨.char '\"', _, rfl, by decide, by decide⟩
  | call => exact ⟨.char 'r', _, rfl, by decide, by decide⟩
  | bound hbound =>
    obtain ⟨c, r, rfl, hc, -⟩ := (isIdentifier_of_boundTo hbound).exists_cons
    refine ⟨c, r, rfl, ?_, ?_⟩
    · rintro rfl
      exact absurd hc (by decide)
    · rintro rfl
      exact absurd hc (by decide)

/-- A mention is an element of an array. -/
theorem Names.readAs (h : Names statements mention module) :
    ReadAs ']' Literal.rawItem mention.text mention.text := by
  have hunspaced := h.unspaced
  have hbalanced := h.balanced
  obtain ⟨c, r, hcons, hslash, hpoint⟩ := h.exists_cons
  rw [hcons] at hunspaced hbalanced ⊢
  have hsolid : Literal.Solid (c :: r) :=
    Literal.solid_cons (hunspaced c List.mem_cons_self) hslash
  have htrimmed : Text.Trimmed (c :: r) := fun d hd => hunspaced d (List.mem_of_getLast? hd)
  have hself : SelfContained (c :: r) :=
    Literal.selfContained_of_balanced (b := []) (List.cons_ne_nil c r) hsolid htrimmed
      Text.allBlank_nil (by rwa [List.append_nil])
  have hread := Literal.readAs_rawItem (b := []) hself
    ⟨Text.allBlank_nil, by rwa [List.append_nil]⟩ (Literal.dots_isPrefixOf hpoint r)
  rwa [List.append_nil] at hread

/-! ### The list -/

/-- Texts with commas and spaces between them, before the closing bracket. -/
theorem listed_intercalate {E : Text → Text → Prop} {texts : List Text} (h : ∀ x ∈ texts, E x x) :
    Listed ']' E texts (List.intercalate ", " texts ++ [.char ']']) := by
  have hfrom : ∀ (texts : List Text) (x g : Text), Literal.Gap g → (∀ y ∈ x :: texts, E y y) →
      Listed ']' E (x :: texts) (g ++ (List.intercalate ", " (x :: texts) ++ [.char ']'])) := by
    intro texts
    induction texts with
    | nil =>
      intro x g hg hE
      rw [List.intercalate_singleton]
      exact .last hg (hE x List.mem_cons_self)
    | cons y texts ih =>
      intro x g hg hE
      have hspace : Literal.Gap [.char ' '] := .blank rfl .nil
      have hrest := ih y [.char ' '] hspace fun z hz => hE z (List.mem_cons_of_mem x hz)
      have htext : List.intercalate ", " (x :: y :: texts) ++ [.char ']'] =
          x ++ .char ',' :: ([.char ' '] ++
            (List.intercalate ", " (y :: texts) ++ [.char ']'])) := by
        rw [List.intercalate_cons_cons, List.append_assoc, List.append_assoc]
        rfl
      rw [htext]
      exact .more hg (hE x List.mem_cons_self) hrest
  cases texts with
  | nil => exact .none (g := []) .nil
  | cons x texts => exact hfrom texts x [] .nil h

/-- What is true of every mention that names a module is true of all in the list. -/
theorem forall_text {P : Text → Prop}
    (hP : ∀ mention module, Names statements mention module → P mention.text)
    (h : List.Forall₂ (Names statements) mentions modules) :
    ∀ x ∈ mentions.map Mention.text, P x := by
  induction h with
  | nil => exact List.forall_mem_nil P
  | cons hnames _ ih => exact List.forall_mem_cons.2 ⟨hP _ _ hnames, ih⟩

theorem listing_eq (mentions : List Mention) :
    listing mentions =
      .char '[' :: (List.intercalate ", " (mentions.map Mention.text) ++ [.char ']']) := rfl

/-- The list is read element by element. -/
theorem elements_listing (h : List.Forall₂ (Names statements) mentions modules) :
    Literal.elements (listing mentions) = ⟨mentions.map Mention.text, none⟩ := by
  have hreads : ∀ x ∈ mentions.map Mention.text, ReadAs ']' Literal.rawItem x x :=
    forall_text (fun _ _ hnames => hnames.readAs) h
  have hread := Literal.rawContainer_append (f := id) (g := []) Literal.isCloser_bracket
    (fun _ _ (hx : ReadAs ']' Literal.rawItem _ _) => hx) .nil Literal.solid_bracket
    (listed_intercalate hreads) []
  rw [List.map_id, List.append_nil, List.nil_append] at hread
  exact hread

/-- The list is one expression, with a space behind it. -/
theorem balanced_listing (h : List.Forall₂ (Names statements) mentions modules) :
    Balanced [] (listing mentions ++ [.char ' ']) := by
  have hbalanced : ∀ x ∈ mentions.map Mention.text, Balanced [] x :=
    forall_text (fun _ _ hnames => hnames.balanced) h
  have hspace : Balanced [] [CodePoint.char ' '] := .gap (.blank rfl .nil) .nil
  have hlisted := (listed_intercalate (E := fun _ x => Balanced [] x) hbalanced).balanced
    Literal.isCloser_bracket (fun _ _ hx => hx) hspace
  exact .opener rfl hlisted

theorem selfContained_listing (h : List.Forall₂ (Names statements) mentions modules) :
    SelfContained (listing mentions) := by
  refine Literal.selfContained_of_balanced (b := [.char ' ']) (List.cons_ne_nil _ _)
    (Literal.solid_bracket _) ?_ (Text.allBlank_spaces 1) (balanced_listing h)
  rw [listing_eq, ← List.cons_append]
  exact Text.trimmed_concat rfl

/-- The object holds the list and nothing else. -/
theorem properties_listing (h : List.Forall₂ (Names statements) mentions modules) :
    Literal.properties
        (.char '\x7b' :: ((" plugins: " : Text) ++ listing mentions ++ (" \x7d" : Text))) =
      ⟨[("plugins", listing mentions)], none⟩ := by
  have hkey : Literal.Key ("plugins" : Text) ("plugins" : Text) :=
    .bare (IsIdentifier.bareKey (by decide))
  have hspace : Literal.Gap [.char ' '] := .blank rfl .nil
  have hfield := Literal.CutField.keyed hkey .nil hspace (selfContained_listing h)
    ⟨Text.allBlank_spaces 1, balanced_listing h⟩
  have hlisted : Listed '\x7d' Literal.CutField [(("plugins" : Text), listing mentions)] _ :=
    .last hspace hfield
  have hread := Literal.rawContainer_append (f := id) (g := []) Literal.isCloser_brace
    (fun _ _ (hx : Literal.CutField _ _) => hx.readAs) .nil Literal.solid_brace hlisted []
  rw [List.append_nil, List.nil_append] at hread
  have htext : (" plugins: " : Text) ++ listing mentions ++ (" \x7d" : Text) =
      [.char ' '] ++ (("plugins" : Text) ++ ([] ++ .char ':' :: ([.char ' '] ++
        (listing mentions ++ [.char ' ']))) ++ [.char '\x7d']) := by
    simp [Text.ofString]
  rw [htext]
  exact hread

/-! ### The searches for bindings -/

section Passes

variable {α : Type} {m : Text.Matcher α} {words : List Text} {t : Text}

/-- No statement begins in a list of plugins. -/
theorem passes_intercalate (hm : Keyed words m) (hwords : words ⊆ keywords) {texts : List Text}
    {g : Text} (hg : Unspaced g) (htexts : ∀ x ∈ texts, Unspaced x) :
    Passes m (g ++ (List.intercalate ", " texts ++ ("] " : Text))) t := by
  -- each text makes a word with the mark behind it
  have hmark : ∀ {w : Text} {c : CodePoint} {t : Text}, Unspaced w →
      (c = .char ',' ∨ c = .char ']') → Passes m (w ++ [c] ++ [.char ' ']) t := by
    rintro w c t hw hc
    have hcunspaced : Unspaced [c] := by rcases hc with rfl | rfl <;> decide
    have hcplain : ∀ keyword ∈ keywords, c ∉ keyword := by rcases hc with rfl | rfl <;> decide
    exact passes_marked hm hwords (Text.unspaced_append.2 ⟨hw, hcunspaced⟩) hcplain rfl
  induction texts generalizing g with
  | nil =>
    have hend := hmark (t := t) hg (.inr rfl)
    rwa [List.append_assoc] at hend
  | cons x texts ih =>
    have hx := Text.unspaced_append.2 ⟨hg, htexts x List.mem_cons_self⟩
    cases texts with
    | nil =>
      have hend := hmark (t := t) hx (.inr rfl)
      rw [List.append_assoc, List.append_assoc] at hend
      rw [List.intercalate_singleton]
      exact hend
    | cons y texts =>
      have hrest := ih (g := []) (by decide) fun z hz => htexts z (List.mem_cons_of_mem x hz)
      have htext : g ++ (List.intercalate ", " (x :: y :: texts) ++ ("] " : Text)) =
          (g ++ x) ++ [.char ','] ++ [.char ' '] ++
            ([] ++ (List.intercalate ", " (y :: texts) ++ ("] " : Text))) := by
        simp [List.intercalate_cons_cons, Text.ofString]
      rw [htext]
      exact .append (hmark hx (.inl rfl)) hrest

/-- No statement begins in a configuration. -/
theorem passes_configuring (hm : Keyed words m) (hwords : words ⊆ bindingKeywords)
    (h : List.Forall₂ (Names statements) mentions modules) :
    Passes m (configuring mentions) [] := by
  have hplain : ∀ w ∈ (["export", "default", "\x7b", "plugins:", "\x7d", "satisfies"] : List Text),
      Unspaced w ∧ ∀ keyword ∈ bindingKeywords, ¬ keyword <:+ w := by decide
  have hwords' : ∀ ws : List Text,
      ws ⊆ ["export", "default", "\x7b", "plugins:", "\x7d", "satisfies"] →
      ∀ t, Passes m (ws.flatMap fun w => w ++ [.char ' ']) t := by
    intro ws hws t
    refine .words hm fun w hw => ?_
    obtain ⟨hunspaced, hsuffix⟩ := hplain w (hws hw)
    exact ⟨hunspaced, fun keyword hkeyword => hsuffix keyword (hwords hkeyword)⟩
  have hlisting : ∀ t, Passes m (("[" : Text) ++
      (List.intercalate ", " (mentions.map Mention.text) ++ ("] " : Text))) t := fun t =>
    passes_intercalate hm (List.Subset.trans hwords (List.subset_cons_self _ _)) (by decide)
      (forall_text (fun _ _ hnames => hnames.unspaced) h)
  have htext : configuring mentions =
      (["export", "default", "\x7b", "plugins:"] : List Text).flatMap (fun w => w ++ [.char ' ']) ++
        ((("[" : Text) ++ (List.intercalate ", " (mentions.map Mention.text) ++ ("] " : Text))) ++
          ((["\x7d", "satisfies"] : List Text).flatMap (fun w => w ++ [.char ' ']) ++
            ("Config" : Text))) := by
    simp [configuring, listing, Text.ofString]
  rw [htext]
  have hend : Passes m ((["\x7d", "satisfies"] : List Text).flatMap (fun w => w ++ [.char ' ']) ++
      ("Config" : Text)) [] := .append (hwords' _ (by decide) _) (.last hm (by decide))
  exact .append (hwords' _ (by decide) _) (.append (hlisting _) hend)

end Passes

theorem allMatches_configuring {m : Text.Matcher (Text × Text)} {words : List Text}
    (hm : Keyed words m) (hwords : words ⊆ bindingKeywords)
    (h : List.Forall₂ (Names statements) mentions modules) :
    Text.allMatches m (configuring mentions) = [] := by
  have hmatches := Text.allMatches_append (passes_configuring hm hwords h)
  rwa [List.append_nil, Text.allMatches_nil] at hmatches

/-! ### What the list is read as -/

/-- A string in plain quotes is an entry of its own. -/
theorem stringOf?_quoted {q : CodePoint} (hq : q = .char '\'' ∨ q = .char '\"')
    (h : IsModule module) : stringOf? (q :: (module ++ [q])) = some module := by
  have hquote : Literal.isQuote q = true := by rcases hq with rfl | rfl <;> rfl
  have hread : Value.read (q :: (module ++ [q])) = .ok (.str module) := by
    have hlast := (Literal.readsClosed_string hquote (h.quoted hq)).read_last (p := []) (b := [])
      .nil Text.allBlank_nil
    rwa [List.append_nil] at hlast
  have hbegins : (Text.beginsWith "'" (q :: (module ++ [q])) ||
      Text.beginsWith "\"" (q :: (module ++ [q]))) = true := by
    rcases hq with rfl | rfl <;> rfl
  rw [stringOf?, if_pos hbegins, hread]

theorem stringOf?_of_isIdentifier {name : Text} (h : IsIdentifier name) :
    stringOf? name = none := by
  obtain ⟨c, r, rfl, hc, -⟩ := h.exists_cons
  have hne : ∀ d : CodePoint, Text.isIdentifierStart d = false → (d == c) = false := by
    intro d hd
    rw [beq_eq_false_iff_ne]
    rintro rfl
    rw [hc] at hd
    cases hd
  have hbegins : (Text.beginsWith "'" (c :: r) || Text.beginsWith "\"" (c :: r)) = false := by
    have hsingle := hne (.char '\'') (by decide)
    have hdouble := hne (.char '\"') (by decide)
    simp [Text.beginsWith, Text.ofString, List.isPrefixOf, hsingle, hdouble]
  rw [stringOf?, if_neg (ne_true_of_eq_false hbegins)]

theorem requireCall?_of_isIdentifier {name : Text} (h : IsIdentifier name) :
    requireCall? name = none := by
  have hafter : Text.after? "require(" name = none := by
    rw [Option.eq_none_iff_forall_ne_some]
    intro rest hrest
    have hmem : CodePoint.char '(' ∈ name := by
      rw [Text.after?_eq_some_iff.1 hrest]
      exact List.mem_append_left rest (by decide)
    exact absurd (h.bareKey.isKeyPart _ hmem) (by decide +kernel)
  rw [requireCall?, hafter]
  rfl

/-- The description of a mention names its module. -/
theorem describe_text {bound : Record Text}
    (hbound : ∀ name, Record.get? name bound = Statement.boundTo statements name)
    (h : Names statements mention module) :
    describe bound mention.text = mention.descriptor module := by
  cases h with
  | single hmodule =>
    have hentry := stringOf?_quoted (.inl rfl) hmodule
    show describe bound (.char '\'' :: (module ++ [.char '\''])) = _
    rw [describe, hentry]
    rfl
  | double hmodule =>
    have hentry := stringOf?_quoted (.inr rfl) hmodule
    show describe bound (.char '\"' :: (module ++ [.char '\"'])) = _
    rw [describe, hentry]
    rfl
  | call hmodule =>
    have hentry : stringOf? (Mention.call module).text = none := rfl
    have hcall : requireCall? (Mention.call module).text = some (module, []) := by
      have htext : (Mention.call module).text = ("require(" : Text) ++
          .char '\'' :: (module ++ .char '\'' :: [.char ')']) := by
        simp [Mention.text, Text.ofString]
      rw [htext]
      show (moduleName? (.char '\'' :: (module ++ .char '\'' :: [.char ')']))).bind _ = _
      rw [moduleName?_append hmodule]
      rfl
    rw [describe, hentry]
    simp only [moduleOf?, hcall]
    rfl
  | @bound name _ hname =>
    have hidentifier := isIdentifier_of_boundTo hname
    have hentry : stringOf? name = none := stringOf?_of_isIdentifier hidentifier
    have hmodule : moduleOf? bound name = some module := by
      rw [moduleOf?, requireCall?_of_isIdentifier hidentifier]
      show (Text.identifier? name).bind _ = _
      rw [show Text.identifier? name = some (name, []) from hidentifier]
      exact (hbound name).trans hname
    show describe bound name = _
    rw [describe, hentry, hmodule]
    rfl

/-- The configuration holds the descriptions, and there is nothing to say about it. -/
theorem read_naming (h : List.Forall₂ (Names statements) mentions modules)
    (hbound : ∀ name, Record.get? name (bindings (naming statements mentions)) =
      Statement.boundTo statements name) :
    read (naming statements mentions) = .ok (.silent (.ok (described mentions modules))) := by
  have hobject : objectSource? (naming statements mentions) =
      some (.char '\x7b' :: ((" plugins: " : Text) ++ listing mentions ++ (" \x7d" : Text))) := by
    have hfound := objectSource?_exported " satisfies Config" (by decide +kernel)
      (by decide +kernel) ((" plugins: " : Text) ++ listing mentions ++ (" " : Text))
    have htext : configuring mentions = ("export default " : Text) ++ .char '\x7b' ::
        ((" plugins: " : Text) ++ listing mentions ++ (" " : Text) ++
          .char '\x7d' :: (" satisfies Config" : Text)) := by
      simp [configuring, Text.ofString]
    have hbrace : (" plugins: " : Text) ++ listing mentions ++ (" \x7d" : Text) =
        (" plugins: " : Text) ++ listing mentions ++ (" " : Text) ++ [.char '\x7d'] := by
      simp [Text.ofString]
    rw [naming, objectSource?_lines, htext, hfound, hbrace]
  have hdescribed : (mentions.map Mention.text).map
      (describe (bindings (naming statements mentions))) =
        List.zipWith Mention.descriptor mentions modules := by
    clear hobject
    generalize bindings (naming statements mentions) = bound at hbound ⊢
    induction h with
    | nil => rfl
    | cons hnames _ ih =>
      rw [List.map_cons, List.map_cons, List.zipWith_cons_cons, describe_text hbound hnames, ih]
  have hplugins : plugins (bindings (naming statements mentions)) (listing mentions) =
      .silent (some (.array (List.zipWith Mention.descriptor mentions modules))) := by
    have hbracket : Text.beginsWith "[" (listing mentions) = true := rfl
    rw [plugins, if_pos hbracket]
    simp only [elements_listing h, hdescribed]
    rfl
  have hfield : field (bindings (naming statements mentions)) "plugins" (listing mentions) =
      .silent (.ok (some (.array (List.zipWith Mention.descriptor mentions modules)))) :=
    congrArg Attempt.whole hplugins
  have hentries := entries_of_properties (properties_listing h) "the config object"
    (field (bindings (naming statements mentions)))
  rw [read, hobject]
  refine congrArg Except.ok (hentries.trans ?_)
  simp [gather, hfield, Reported.andThen, Reported.map, Reported.silent, settled, described,
    Record.ofList_of_nodup]

/-! ### What is made of it -/

/-- Plugins that are known by nothing but their modules are loaded one after another. -/
theorem blocksFrom_plain {config : Value} (hdaisy : ¬ Plugin.HasDaisySettings config)
    {ds : List Plugin.Descriptor}
    (h : List.Forall₂ (fun d module => d.kind = .plain module) ds modules) :
    Plugin.blocksFrom config false ds =
      .silent (modules.map fun module => [Plugin.loadLine module]) := by
  induction h with
  | nil =>
    rw [Plugin.blocksFrom, Plugin.daisyBlock_of_not_hasDaisySettings hdaisy]
    rfl
  | cons hkind _ ih =>
    rw [Plugin.blocksFrom, hkind]
    simp only [ih]
    rfl

/-- The name of a mention is a part of its text. -/
theorem Mention.name_infix_text (mention : Mention) : mention.name <:+: mention.text := by
  cases mention with
  | single module | double module => exact ⟨_, _, rfl⟩
  | call | bound => exact List.infix_rfl

/-- A module that is not known by its name is loaded by it. -/
theorem kind_descriptor (h : Names statements mention module) (hmention : Ordinary mention.text)
    (hmodule : Ordinary module) :
    (Plugin.Descriptor.ofValue (mention.descriptor module)).kind = .plain module := by
  have htruthy : (Value.str module).isTruthy = true := by
    cases module with
    | nil => exact absurd rfl h.isModule.ne_nil
    | cons => rfl
  have hmentions : ∀ {word : Text}, ¬ word <:+: mention.text → ¬ word <:+: module →
      ¬ (Plugin.Descriptor.ofValue (mention.descriptor module)).Mentions word := by
    rintro word htext hmodule (hname | ⟨-, hdisplay⟩)
    · exact htext (hname.trans mention.name_infix_text)
    · exact hmodule hdisplay
  have htypography :
      ¬ (Plugin.Descriptor.ofValue (mention.descriptor module)).IsTypography :=
    hmentions hmention.1 hmodule.1
  have hdaisy : ¬ (Plugin.Descriptor.ofValue (mention.descriptor module)).IsDaisy :=
    fun hd => hmentions hmention.2 hmodule.2 hd.1
  rw [Plugin.kind_eq, if_neg htypography, if_neg hdaisy]
  exact if_pos htruthy

theorem kinds_descriptor (h : List.Forall₂ (Names statements) mentions modules)
    (hmentions : ∀ mention ∈ mentions, Ordinary mention.text)
    (hmodules : ∀ module ∈ modules, Ordinary module) :
    List.Forall₂ (fun d module => d.kind = .plain module)
      ((List.zipWith Mention.descriptor mentions modules).map Plugin.Descriptor.ofValue)
      modules := by
  induction h with
  | nil => exact .nil
  | cons hnames _ ih =>
    rw [List.forall_mem_cons] at hmentions hmodules
    exact .cons (kind_descriptor hnames hmentions.1 hmodules.1) (ih hmentions.2 hmodules.2)

/-- **All ways of naming a plugin agree.**  A name that statements bind stands for the module of the
last call of `require` for it, or else of the last import.  The list of plugins is read as one
description for each mention, with the module that it names, and nothing is said about it.  If
neither typography nor daisyUI is named, the modules are loaded in their order, each in a block of
its own, and again nothing is said. -/
theorem plugins_named (h : List.Forall₂ (Names statements) mentions modules) :
    (∀ name, Record.get? name (bindings (naming statements mentions)) =
      Statement.boundTo statements name) ∧
    read (naming statements mentions) = .ok (.silent (.ok (described mentions modules))) ∧
    ((∀ mention ∈ mentions, Ordinary mention.text) → (∀ module ∈ modules, Ordinary module) →
      Plugin.blocks (.object (described mentions modules)) =
        .silent (modules.map fun module => [Plugin.loadLine module])) := by
  have hbound := get?_bindings (allMatches_configuring keyed_importBinding? (by decide) h)
    (allMatches_configuring keyed_requireBinding? (List.Subset.refl _) h) statements
  refine ⟨hbound, read_naming h hbound, fun hmentions hmodules => ?_⟩
  have hdaisy : ¬ Plugin.HasDaisySettings (.object (described mentions modules)) := by
    intro hsome
    cases hsome
  exact blocksFrom_plain hdaisy (kinds_descriptor h hmentions hmodules)

/-- Names that are keywords or end with one, bound again and again, and the same module named in
each of the four ways. -/
theorem plugins_named_keywords :
    let statement (form : Form) (name module : Text) (hname : IsIdentifier name)
      (hmodule : module ≠ [] ∧ ∀ c ∈ module, isModuleChar c = true) : Statement :=
      ⟨form, name, module, hname, hmodule.1, hmodule.2⟩
    let statements : List Statement :=
      [statement (.required "import" (by decide)) "from" "@a/var" (by decide) (by decide),
        statement .imported "from" "import" (by decide) (by decide),
        statement .importedAll "as" "b" (by decide) (by decide),
        statement .imported "as" "@a/var" (by decide) (by decide),
        statement (.required "let" (by decide)) "reimport" "c.js" (by decide) (by decide)]
    let mentions : List Mention :=
      [.bound "from", .single "@a/var", .bound "as", .double "@a/var", .bound "reimport",
        .call "@a/var"]
    naming statements mentions = "import from = require('@a/var')\nimport from from 'import'\n" ++
      "import * as as from 'b'\nimport as from '@a/var'\nlet reimport = require('c.js')\n" ++
      "export default \x7b plugins: [from, '@a/var', as, \"@a/var\", reimport, " ++
      "require('@a/var')] \x7d satisfies Config" ∧
    ∃ config, read (naming statements mentions) = .ok (.silent (.ok config)) ∧
      Plugin.blocks (.object config) =
        .silent [["@plugin \"@a/var\";"], ["@plugin \"@a/var\";"], ["@plugin \"@a/var\";"],
          ["@plugin \"@a/var\";"], ["@plugin \"c.js\";"], ["@plugin \"@a/var\";"]] := by
  intro statement statements mentions
  have hmodule : IsModule ("@a/var" : Text) := ⟨by decide, by decide⟩
  have h : List.Forall₂ (Names statements) mentions
      ["@a/var", "@a/var", "@a/var", "@a/var", "c.js", "@a/var"] :=
    .cons (.bound (by decide +kernel)) (.cons (.single hmodule) (.cons (.bound (by decide +kernel))
      (.cons (.double hmodule) (.cons (.bound (by decide +kernel)) (.cons (.call hmodule) .nil)))))
  obtain ⟨-, hread, hblocks⟩ := plugins_named h
  exact ⟨by decide +kernel, _, hread, hblocks (by decide +kernel) (by decide +kernel)⟩

end TailwindUpgrade.Config
