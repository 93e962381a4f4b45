/-
TailwindUpgrade/Proofs/Config/Binding.lean

The names that a source binds.  A source that begins with statements, one on each line, that import
a module or call `require`, is looked through twice: once for imports and once for calls
(`allMatches_importBinding?`, `allMatches_requireBinding?`).  Each search finds the statements of
its kind, where they begin, and nothing in a statement of the other kind, though a name may end with
a keyword or be one.

Main result: a name is bound to the module of the last call that names it, or else to that of the
last import that does (`get?_bindings`).
-/
import TailwindUpgrade.Proofs.Config.Isolation
import TailwindUpgrade.Proofs.Text.Keyword

namespace TailwindUpgrade.Config

open Text (Keyed Passes Unspaced)

/-! ### Statements -/

/-- A character of the names of modules. -/
def isModuleChar (c : CodePoint) : Bool :=
  c.isAlphanum || c == '@' || c == '/' || c == '.' || c == '_' || c == '-'

/-- A text that names a module. -/
structure IsModule (module : Text) : Prop where
  ne_nil : module ≠ []
  chars : ∀ c ∈ module, isModuleChar c = true

/-- The keywords before a name that is bound by a call. -/
def bindingKeywords : List Text := ["const", "let", "var", "import"]

/-- How a statement binds a name. -/
inductive Form where
  | imported
  | importedAll
  | required (keyword : Text) (isKeyword : keyword ∈ bindingKeywords)

/-- A statement that binds a name to a module. -/
structure Statement where
  form : Form
  name : Text
  module : Text
  isIdentifier : IsIdentifier name
  isModule : IsModule module

namespace Statement

/-- Whether a statement binds its name by a call of `require`. -/
def isRequired (statement : Statement) : Bool :=
  match statement.form with
  | .imported | .importedAll => false
  | .required .. => true

/-- What a statement binds. -/
def binding (statement : Statement) : Text × Text := (statement.name, statement.module)

/-- A statement as it stands in a source. -/
def text (statement : Statement) : Text :=
  match statement.form with
  | .imported => "import " ++ statement.name ++ " from '" ++ statement.module ++ "'"
  | .importedAll => "import * as " ++ statement.name ++ " from '" ++ statement.module ++ "'"
  | .required keyword _ =>
    keyword ++ " " ++ statement.name ++ " = require('" ++ statement.module ++ "')"

/-- Statements, one on each line. -/
def lines (statements : List Statement) : Text :=
  statements.flatMap fun statement => statement.text ++ "\n"

/-- The module of the last statement for a name. -/
def lastModule (name : Text) (statements : List Statement) : Option Text :=
  (statements.filter (·.name = name)).getLast?.map (·.module)

/-- The module that a name is bound to: that of its last call of `require`, if there is one, and
else that of its last import. -/
def boundTo (statements : List Statement) (name : Text) : Option Text :=
  (lastModule name (statements.filter (·.isRequired))).or
    (lastModule name (statements.filter (!·.isRequired)))

end Statement

variable {name module s t : Text}

/-! ### Names and modules among other text -/

theorem isModuleChar_spec {c : CodePoint} (h : isModuleChar c = true) :
    Text.isBlank c = false ∧ c ≠ .char '\'' ∧ c ≠ .char '\"' ∧ c ≠ .char '\\' := by
  have hblank : ∀ n ∈ Text.blankNumbers, isModuleChar (.ofNat n) = false := by decide +kernel
  refine ⟨?_, ?_, ?_, ?_⟩
  · by_contra hc
    have hnumber := hblank _ (Text.toNat_mem_blankNumbers (by simpa using hc))
    rw [CodePoint.ofNat_toNat, h] at hnumber
    cases hnumber
  all_goals
    rintro rfl
    exact absurd h (by decide)

theorem IsModule.unspaced (h : IsModule module) : Unspaced module :=
  fun c hc => (isModuleChar_spec (h.chars c hc)).1

/-- The module between quotes. -/
theorem moduleName?_append (h : IsModule module) (s : Text) :
    moduleName? (.char '\'' :: (module ++ .char '\'' :: s)) = some (module, s) := by
  have hplain : ∀ c ∈ module, (!(c == .char '\'' || c == .char '\"')) = true := by
    intro c hc
    obtain ⟨-, hsingle, hdouble, -⟩ := isModuleChar_spec (h.chars c hc)
    simp [hsingle, hdouble]
  have hquote : ∀ c ∈ (CodePoint.char '\'' :: s).head?,
      (!(c == .char '\'' || c == .char '\"')) = false := by
    rintro c ⟨⟩
    rfl
  rw [moduleName?]
  simp only [Text.takeWhile_append_stop hplain hquote, Text.dropWhile_append_stop hplain hquote]
  exact if_pos ⟨rfl, h.ne_nil⟩

/-- An identifier before a space. -/
theorem IsIdentifier.identifier?_spaced (h : IsIdentifier name) (s : Text) :
    Text.identifier? (name ++ .char ' ' :: s) = some (name, .char ' ' :: s) := by
  apply h.identifier?_append
  rintro c ⟨⟩
  decide

theorem IsIdentifier.unspaced (h : IsIdentifier name) : Unspaced name := by
  intro c hc
  exact (Literal.isKeyPart_spec (h.bareKey.isKeyPart c hc)).2.2.2

theorem IsIdentifier.stripStart_append (h : IsIdentifier name) (s : Text) :
    Text.stripStart (name ++ s) = name ++ s := by
  have hunspaced := h.unspaced
  obtain ⟨c, r, rfl, -, -⟩ := h.exists_cons
  exact Text.stripStart_of_not_isBlank (hunspaced c List.mem_cons_self)

/-! ### What the searches wait for -/

/-- A matcher that looks for a keyword first and for blanks behind it. -/
theorem keyed_of_bind {α : Type} {m : Text.Matcher α} {words : List Text}
    {keyword? : Text → Option Text} {f : Text → Option (α × Text)}
    (hwords : ∀ word ∈ words, Unspaced word)
    (hkeyword : ∀ s rest, keyword? s = some rest → ∃ word ∈ words, s = word ++ rest)
    (hm : ∀ s, m s = (keyword? s).bind fun rest => (Text.afterBlanks? rest).bind f) :
    Keyed words m := by
  refine ⟨hwords, fun s hit h => ?_⟩
  rw [hm] at h
  obtain ⟨rest, hrest, h⟩ := Option.bind_eq_some_iff.1 h
  obtain ⟨rest', hblank, -⟩ := Option.bind_eq_some_iff.1 h
  obtain ⟨c, r, hc, rfl, -⟩ := Text.afterBlanks?_eq_some_iff.1 hblank
  obtain ⟨word, hword, htext⟩ := hkeyword s _ hrest
  exact ⟨word, hword, c, r, hc, htext⟩

theorem keyed_importBinding? : Keyed ["import"] importBinding? :=
  keyed_of_bind (by decide)
    (fun _ _ h => ⟨_, List.mem_singleton_self _, Text.after?_eq_some_iff.1 h⟩) fun _ => rfl

theorem keyed_requireBinding? : Keyed bindingKeywords requireBinding? := by
  refine keyed_of_bind (by decide) (fun s rest h => ?_) fun _ => rfl
  obtain ⟨keyword, hkeyword, hafter⟩ := List.exists_of_findSome?_eq_some h
  exact ⟨keyword, hkeyword, Text.after?_eq_some_iff.1 hafter⟩

theorem keyed_exportStart? : Keyed ["export"] exportStart? :=
  keyed_of_bind (by decide)
    (fun _ _ h => ⟨_, List.mem_singleton_self _, Text.after?_eq_some_iff.1 h⟩) fun _ => rfl

/-! ### A statement in its parts -/

/-- All keywords that are waited for. -/
def keywords : List Text := "export" :: bindingKeywords

namespace Statement

variable (statement : Statement)

/-- What stands before the name. -/
def opening : Text :=
  match statement.form with
  | .imported => "import "
  | .importedAll => "import * as "
  | .required keyword _ => keyword ++ " "

/-- What stands behind the name and a space. -/
def origin : Text :=
  match statement.form with
  | .imported | .importedAll => "from '" ++ statement.module ++ "'"
  | .required .. => "= require('" ++ statement.module ++ "')"

theorem text_append (t : Text) :
    statement.text ++ t =
      statement.opening ++ (statement.name ++ .char ' ' :: (statement.origin ++ t)) := by
  obtain ⟨form, name, module, hname, hmodule⟩ := statement
  cases form <;> simp [text, opening, origin, Text.ofString]

theorem text_ne_nil : statement.text ≠ [] := by
  intro hnil
  have hlength := congrArg List.length (statement.text_append [])
  rw [hnil] at hlength
  simp only [List.length_append, List.length_cons, List.length_nil] at hlength
  omega

/-- A name may end with a keyword, but what stands behind it does not go on from there. -/
theorem importBinding?_origin (t : Text) :
    importBinding? (("import" : Text) ++ .char ' ' :: (statement.origin ++ t)) = none := by
  obtain ⟨form, name, module, hname, hmodule⟩ := statement
  cases form <;> rfl

theorem requireBinding?_origin (t : Text) :
    ∀ keyword ∈ bindingKeywords,
      requireBinding? (keyword ++ .char ' ' :: (statement.origin ++ t)) = none := by
  obtain ⟨form, name, module, hname, hmodule⟩ := statement
  simp only [bindingKeywords, List.forall_mem_cons]
  cases form <;> exact ⟨rfl, rfl, rfl, rfl, List.forall_mem_nil _⟩

theorem exportStart?_origin (t : Text) :
    exportStart? (("export" : Text) ++ .char ' ' :: (statement.origin ++ t)) = none := by
  obtain ⟨form, name, module, hname, hmodule⟩ := statement
  cases form <;> rfl

end Statement

/-! ### Statements that are passed over -/

/-- No word ends with a keyword that ends with another character. -/
theorem not_suffix_concat {keyword : Text} {c : CodePoint} (hne : keyword ≠ []) (hc : c ∉ keyword)
    (w : Text) : ¬ keyword <:+ w ++ [c] := by
  intro hsuffix
  rcases List.suffix_concat_iff.1 hsuffix with rfl | ⟨r, rfl, -⟩
  · exact hne rfl
  · simp at hc

section Passes

variable {α : Type} {m : Text.Matcher α} {words : List Text}

/-- A word that ends with a mark. -/
theorem passes_marked (hm : Keyed words m) (hwords : words ⊆ keywords) {w : Text} {c d : CodePoint}
    (hw : Unspaced (w ++ [c])) (hc : ∀ keyword ∈ keywords, c ∉ keyword)
    (hd : Text.isBlank d = true) : Passes m (w ++ [c] ++ [d]) t := by
  have hne : ∀ keyword ∈ keywords, keyword ≠ [] := by decide
  refine .plain hm hw hd fun keyword hkeyword => ?_
  exact not_suffix_concat (hne _ (hwords hkeyword)) (hc _ (hwords hkeyword)) w

/-- What stands behind the name of a statement, with the end of the line. -/
theorem passes_origin (hm : Keyed words m) (hwords : words ⊆ keywords) (statement : Statement) :
    Passes m (statement.origin ++ [.char '\n']) t := by
  have hfrom : ∀ keyword ∈ keywords, ¬ keyword <:+ ("from" : Text) := by decide
  have hequals : ∀ keyword ∈ keywords, ¬ keyword <:+ ("=" : Text) := by decide
  obtain ⟨form, name, module, hname, hmodule⟩ := statement
  have hquoted : Unspaced (("'" : Text) ++ module ++ [.char '\'']) := by
    rw [Text.unspaced_append, Text.unspaced_append]
    exact ⟨⟨by decide, hmodule.unspaced⟩, by decide⟩
  have hcall : Unspaced (("require('" : Text) ++ module ++ ("'" : Text) ++ [.char ')']) := by
    rw [Text.unspaced_append, Text.unspaced_append, Text.unspaced_append]
    exact ⟨⟨⟨by decide, hmodule.unspaced⟩, by decide⟩, by decide⟩
  have himport : Passes m ((("from" : Text) ++ [.char ' ']) ++
      (("'" : Text) ++ module ++ [.char '\''] ++ [.char '\n'])) t :=
    .append (.plain hm (by decide) (by decide) fun w hw => hfrom w (hwords hw))
      (passes_marked hm hwords hquoted (by decide) (by decide))
  have hrequire : Passes m ((("=" : Text) ++ [.char ' ']) ++
      (("require('" : Text) ++ module ++ ("'" : Text) ++ [.char ')'] ++ [.char '\n'])) t :=
    .append (.plain hm (by decide) (by decide) fun w hw => hequals w (hwords hw))
      (passes_marked hm hwords hcall (by decide) (by decide))
  cases form with
  | imported | importedAll => exact himport
  | required keyword hkeyword =>
    have htext : ("= require('" : Text) ++ module ++ ("')" : Text) ++ [.char '\n'] =
        ("=" : Text) ++ [.char ' '] ++
          (("require('" : Text) ++ module ++ ("'" : Text) ++ [.char ')'] ++ [.char '\n']) := by
      simp [Text.ofString]
    show Passes m (("= require('" : Text) ++ module ++ ("')" : Text) ++ [.char '\n']) t
    rw [htext]
    exact hrequire

/-- A name with the space behind it, and the rest of the line. -/
theorem passes_name (hm : Keyed words m) (hwords : words ⊆ keywords) (statement : Statement)
    (horigin : ∀ t, ∀ keyword ∈ words, m (keyword ++ .char ' ' :: (statement.origin ++ t)) = none) :
    Passes m (statement.name ++ .char ' ' :: (statement.origin ++ [.char '\n'])) t := by
  have hname : Passes m (statement.name ++ [.char ' ']) (statement.origin ++ [.char '\n'] ++ t) :=
    .word hm statement.isIdentifier.unspaced (by decide) fun keyword hkeyword _ => by
      rw [List.append_assoc]
      exact horigin _ keyword hkeyword
  have htext : statement.name ++ .char ' ' :: (statement.origin ++ [.char '\n']) =
      statement.name ++ [.char ' '] ++ (statement.origin ++ [.char '\n']) := by simp
  rw [htext]
  exact hname.append (passes_origin hm hwords statement)

end Passes

/-- The export is not begun in a statement. -/
theorem passes_exportStart? (statement : Statement) :
    Passes exportStart? (statement.text ++ [.char '\n']) t := by
  have hm := keyed_exportStart?
  have hwords : (["export"] : List Text) ⊆ keywords := by decide
  have hword : ∀ {w : Text} {t : Text}, Unspaced w → ¬ ("export" : Text) <:+ w →
      Passes exportStart? (w ++ [.char ' ']) t := by
    intro w t hw hsuffix
    refine .plain hm hw (by decide) fun keyword hkeyword => ?_
    rwa [List.mem_singleton.1 hkeyword]
  have hopening : ∀ t, Passes exportStart? statement.opening t := by
    intro t
    obtain ⟨form, name, module, hname, hmodule⟩ := statement
    cases form with
    | imported => exact hword (w := ("import" : Text)) (by decide) (by decide)
    | importedAll =>
      have hstar : Passes exportStart? (("*" : Text) ++ [.char ' '] ++
          (("as" : Text) ++ [.char ' '])) t :=
        .append (hword (by decide) (by decide)) (hword (by decide) (by decide))
      exact .append (s := ("import" : Text) ++ [.char ' ']) (hword (by decide) (by decide)) hstar
    | required keyword hkeyword =>
      have hall : ∀ keyword ∈ bindingKeywords,
          Unspaced keyword ∧ ¬ ("export" : Text) <:+ keyword := by decide
      obtain ⟨hunspaced, hsuffix⟩ := hall keyword hkeyword
      exact hword hunspaced hsuffix
  rw [statement.text_append]
  refine (hopening _).append (passes_name hm hwords statement fun t keyword hkeyword => ?_)
  rw [List.mem_singleton.1 hkeyword]
  exact statement.exportStart?_origin t

/-! ### Imports -/

/-- What an import says behind the name that it binds. -/
def importOrigin? (name s : Text) : Option ((Text × Text) × Text) := do
  let s ← Text.after? "from" (Text.stripStart s)
  let s ← Text.afterBlanks? s
  let (module, s) ← moduleName? s
  return ((name, module), s)

theorem importBinding?_name (h : IsIdentifier name) (s : Text) :
    importBinding? (("import" : Text) ++ .char ' ' :: (name ++ .char ' ' :: s)) =
      importOrigin? name s := by
  have hstar : afterStarAs (name ++ .char ' ' :: s) = name ++ .char ' ' :: s := by
    obtain ⟨c, r, rfl, hc, -⟩ := h.exists_cons
    have hne : CodePoint.char '*' ≠ c := by
      rintro rfl
      exact absurd hc (by decide)
    have hafter : Text.after? "*" (c :: (r ++ .char ' ' :: s)) = none := if_neg hne
    rw [List.cons_append, afterStarAs, hafter]
    rfl
  show (Text.identifier? (afterStarAs (Text.stripStart (name ++ .char ' ' :: s)))).bind _ = _
  rw [h.stripStart_append, hstar, h.identifier?_spaced]
  rfl

theorem importBinding?_all (h : IsIdentifier name) (s : Text) :
    importBinding? (("import * as " : Text) ++ (name ++ .char ' ' :: s)) =
      importOrigin? name s := by
  show (Text.identifier? (Text.stripStart (name ++ .char ' ' :: s))).bind _ = _
  rw [h.stripStart_append, h.identifier?_spaced]
  rfl

/-- An import is found where it begins. -/
theorem importBinding?_text {statement : Statement} (h : statement.isRequired = false) (t : Text) :
    importBinding? (statement.text ++ t) = some (statement.binding, t) := by
  have horigin : ∀ {name module : Text}, IsModule module →
      importOrigin? name (("from '" : Text) ++ module ++ ("'" : Text) ++ t) =
        some ((name, module), t) := by
    intro name module hmodule
    have htext : ("from '" : Text) ++ module ++ ("'" : Text) ++ t =
        ("from " : Text) ++ .char '\'' :: (module ++ .char '\'' :: t) := by
      simp [Text.ofString]
    rw [htext]
    show (moduleName? (.char '\'' :: (module ++ .char '\'' :: t))).bind _ = _
    rw [moduleName?_append hmodule]
    rfl
  rw [statement.text_append]
  obtain ⟨form, name, module, hname, hmodule⟩ := statement
  cases form with
  | imported => exact (importBinding?_name hname _).trans (horigin hmodule)
  | importedAll => exact (importBinding?_all hname _).trans (horigin hmodule)
  | required => cases h

/-- No import begins in a call of `require`. -/
theorem passes_importBinding? {statement : Statement} (h : statement.isRequired = true) :
    Passes importBinding? (statement.text ++ [.char '\n']) t := by
  have hm := keyed_importBinding?
  have hwords : (["import"] : List Text) ⊆ keywords := by decide
  have hopening : Passes importBinding? statement.opening
      (statement.name ++ .char ' ' :: (statement.origin ++ [.char '\n']) ++ t) := by
    obtain ⟨form, name, module, hname, hmodule⟩ := statement
    cases form with
    | imported | importedAll => cases h
    | required keyword hkeyword =>
      have hall : ∀ keyword ∈ bindingKeywords, Unspaced keyword := by decide
      refine Passes.word (c := .char ' ') hm (hall keyword hkeyword) (by decide) ?_
      intro word hword _
      rw [List.mem_singleton.1 hword, List.append_assoc, List.cons_append]
      exact (importBinding?_name hname _).trans rfl
  rw [statement.text_append]
  refine hopening.append (passes_name hm hwords statement fun t keyword hkeyword => ?_)
  rw [List.mem_singleton.1 hkeyword]
  exact statement.importBinding?_origin t

/-! ### Calls -/

/-- What a call says behind the name that it binds. -/
def requireOrigin? (name s : Text) : Option ((Text × Text) × Text) := do
  let s ← Text.after? "=" (Text.stripStart s)
  let (module, s) ← requireCall? (Text.stripStart s)
  return ((name, module), s)

theorem requireBinding?_name (h : IsIdentifier name) (s : Text) : ∀ keyword ∈ bindingKeywords,
    requireBinding? (keyword ++ .char ' ' :: (name ++ .char ' ' :: s)) = requireOrigin? name s := by
  have hname : (Text.identifier? (Text.stripStart (name ++ .char ' ' :: s))).bind (fun x =>
      requireOrigin? x.1 x.2) = requireOrigin? name s := by
    rw [h.stripStart_append, h.identifier?_spaced]
    rfl
  simp only [bindingKeywords, List.forall_mem_cons]
  exact ⟨hname, hname, hname, hname, List.forall_mem_nil _⟩

/-- A call is found where its statement begins. -/
theorem requireBinding?_text {statement : Statement} (h : statement.isRequired = true) (t : Text) :
    requireBinding? (statement.text ++ t) = some (statement.binding, t) := by
  rw [statement.text_append]
  obtain ⟨form, name, module, hname, hmodule⟩ := statement
  cases form with
  | imported | importedAll => cases h
  | required keyword hkeyword =>
    have htext : ("= require('" : Text) ++ module ++ ("')" : Text) ++ t =
        ("= require(" : Text) ++ .char '\'' :: (module ++ .char '\'' :: .char ')' :: t) := by
      simp [Text.ofString]
    have horigin : requireOrigin? name (("= require('" : Text) ++ module ++ ("')" : Text) ++ t) =
        some ((name, module), t) := by
      rw [htext]
      show ((moduleName?
        (.char '\'' :: (module ++ .char '\'' :: .char ')' :: t))).bind _).bind _ = _
      rw [moduleName?_append hmodule]
      rfl
    have hopening : (keyword ++ (" " : Text)) ++ (name ++ .char ' ' ::
        (("= require('" : Text) ++ module ++ ("')" : Text) ++ t)) =
          keyword ++ .char ' ' :: (name ++ .char ' ' ::
            (("= require('" : Text) ++ module ++ ("')" : Text) ++ t)) := by
      rw [List.append_assoc]
      rfl
    show requireBinding? ((keyword ++ (" " : Text)) ++ (name ++ .char ' ' ::
        (("= require('" : Text) ++ module ++ ("')" : Text) ++ t))) = _
    rw [hopening, requireBinding?_name hname _ keyword hkeyword, horigin]
    rfl

/-- No call begins in an import. -/
theorem passes_requireBinding? {statement : Statement} (h : statement.isRequired = false) :
    Passes requireBinding? (statement.text ++ [.char '\n']) t := by
  have hm := keyed_requireBinding?
  have hwords : bindingKeywords ⊆ keywords := List.subset_cons_self _ _
  have hplain : ∀ keyword ∈ bindingKeywords,
      ¬ keyword <:+ ("*" : Text) ∧ ¬ keyword <:+ ("as" : Text) := by decide
  have himport : ∀ keyword ∈ bindingKeywords, keyword <:+ ("import" : Text) →
      keyword = ("import" : Text) := by decide
  have hopening : Passes requireBinding? statement.opening
      (statement.name ++ .char ' ' :: (statement.origin ++ [.char '\n']) ++ t) := by
    obtain ⟨form, name, module, hname, hmodule⟩ := statement
    cases form with
    | imported =>
      refine Passes.word (w := ("import" : Text)) (c := .char ' ') hm (by decide) (by decide) ?_
      intro keyword hkeyword _
      rw [List.append_assoc, List.cons_append]
      exact (requireBinding?_name hname _ keyword hkeyword).trans rfl
    | importedAll =>
      have hstar : ∀ t, Passes requireBinding? (("*" : Text) ++ [.char ' '] ++
          (("as" : Text) ++ [.char ' '])) t := fun t =>
        .append (.plain hm (by decide) (by decide) fun w hw => (hplain w hw).1)
          (.plain hm (by decide) (by decide) fun w hw => (hplain w hw).2)
      refine .append (s := ("import" : Text) ++ [.char ' ']) ?_ (hstar _)
      refine .word hm (by decide) (by decide) fun keyword hkeyword hsuffix => ?_
      rw [himport keyword hkeyword hsuffix]
      rfl
    | required => cases h
  rw [statement.text_append]
  exact hopening.append (passes_name hm hwords statement statement.requireBinding?_origin)

/-! ### All statements -/

/-- A search that finds the statements of one kind, and nothing in those of the other, finds what
they bind. -/
theorem allMatches_lines {m : Text.Matcher (Text × Text)} {kind : Statement → Bool}
    (hfound : ∀ statement t, kind statement = true →
      m (statement.text ++ t) = some (statement.binding, t))
    (hpasses : ∀ statement t, kind statement = false →
      Passes m (statement.text ++ [.char '\n']) t)
    (hline : ∀ t, m (.char '\n' :: t) = none) (statements : List Statement) (t : Text) :
    Text.allMatches m (Statement.lines statements ++ t) =
      (statements.filter kind).map Statement.binding ++ Text.allMatches m t := by
  induction statements with
  | nil => rfl
  | cons statement statements ih =>
    have htext : Statement.lines (statement :: statements) ++ t =
        statement.text ++ .char '\n' :: (Statement.lines statements ++ t) := by
      rw [Statement.lines, List.flatMap_cons, List.append_assoc, List.append_assoc]
      rfl
    rw [htext]
    cases hkind : kind statement with
    | true =>
      rw [Text.allMatches_found statement.text_ne_nil (hfound _ _ hkind),
        Text.allMatches_plain (hline _), ih, List.filter_cons_of_pos hkind]
      rfl
    | false =>
      have hpass :=
        Text.allMatches_append (hpasses statement (Statement.lines statements ++ t) hkind)
      rw [List.append_assoc, List.singleton_append] at hpass
      rw [hpass, ih, List.filter_cons_of_neg (ne_true_of_eq_false hkind)]

theorem allMatches_importBinding? (statements : List Statement) (t : Text) :
    Text.allMatches importBinding? (Statement.lines statements ++ t) =
      (statements.filter (!·.isRequired)).map Statement.binding ++
        Text.allMatches importBinding? t := by
  refine allMatches_lines (fun statement t h => importBinding?_text ?_ t)
    (fun statement t h => passes_importBinding? ?_) (fun t => rfl) statements t
  · simpa using h
  · simpa using h

theorem allMatches_requireBinding? (statements : List Statement) (t : Text) :
    Text.allMatches requireBinding? (Statement.lines statements ++ t) =
      (statements.filter (·.isRequired)).map Statement.binding ++
        Text.allMatches requireBinding? t :=
  allMatches_lines (fun _ t h => requireBinding?_text h t) (fun _ _ h => passes_requireBinding? h)
    (fun _ => rfl) statements t

/-- The last of the fields that statements bind under a name. -/
theorem getLast?_binding (name : Text) (statements : List Statement) :
    ((statements.map Statement.binding).filter (·.1 = name)).getLast?.map (·.2) =
      Statement.lastModule name statements := by
  have hfilter : (statements.map Statement.binding).filter (·.1 = name) =
      (statements.filter (·.name = name)).map Statement.binding := List.filter_map
  rw [hfilter, List.getLast?_map, Option.map_map]
  rfl

/-- **The names that a source binds.**  If nothing is bound behind the statements at its beginning,
a name is bound to the module of the last call that names it, or else of the last import. -/
theorem get?_bindings {t : Text} (himport : Text.allMatches importBinding? t = [])
    (hrequire : Text.allMatches requireBinding? t = []) (statements : List Statement)
    (name : Text) :
    Record.get? name (bindings (Statement.lines statements ++ t)) =
      Statement.boundTo statements name := by
  rw [bindings, allMatches_importBinding?, allMatches_requireBinding?, himport, hrequire,
    List.append_nil, List.append_nil, Record.get?_ofList, List.filter_append, List.getLast?_append,
    Option.map_or, getLast?_binding, getLast?_binding]
  rfl

/-- The object is looked for behind the statements. -/
theorem objectSource?_lines (statements : List Statement) (t : Text) :
    objectSource? (Statement.lines statements ++ t) = objectSource? t := by
  have hpasses : ∀ statements : List Statement,
      Passes exportStart? (Statement.lines statements) t := by
    intro statements
    induction statements with
    | nil => exact .nil
    | cons statement statements ih => exact .append (passes_exportStart? statement) ih
  rw [objectSource?, Text.firstMatch_append (hpasses statements), objectSource?]

end TailwindUpgrade.Config
