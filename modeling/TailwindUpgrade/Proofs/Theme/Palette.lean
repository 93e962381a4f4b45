/-
TailwindUpgrade/Proofs/Theme/Palette.lean

What becomes of the colours of a theme.  Flattening a palette goes through what is in it, depth
first, and says of each value by itself whether it is declared, gives a notice, or neither
(`shadesOf_eq`).  The name of a variable depends on the path alone (`variableName`), and a spread
hides what is below it.

Main result: every leaf of the merged palettes is declared, or a notice says why not, and nothing
else is (`colors_declared`).
-/
import TailwindUpgrade.Proofs.Theme.Merge

namespace TailwindUpgrade.Theme

open Value (Leaf Free Distinct nodes inside leaves)

variable {v : Value} {fields : Record Value} {path : List Text} {name : Text}

/-! ### Names of variables -/

/-- The name of the variable for a colour: the names on the way to it with dashes between them, from
the first one that is not empty, and of the others all but those of default shades. -/
def variableName (path : List Text) : Text :=
  match path.dropWhile (· = []) with
  | [] => []
  | first :: rest => List.intercalate "-" (first :: rest.filter (· ≠ "DEFAULT"))

theorem intercalate_concat (sep first : Text) (rest : List Text) (last : Text) :
    List.intercalate sep (first :: (rest ++ [last])) =
      List.intercalate sep (first :: rest) ++ sep ++ last := by
  induction rest generalizing first with
  | nil => simp
  | cons second rest ih =>
    rw [List.cons_append, List.intercalate_cons_cons, List.intercalate_cons_cons, ih]
    simp only [List.append_assoc]

theorem intercalate_ne_nil {first : Text} (h : first ≠ []) (sep : Text) (rest : List Text) :
    List.intercalate sep (first :: rest) ≠ [] := by
  cases rest with
  | nil => simpa using h
  | cons second rest => simp [h]

/-- Below a name the name of a variable grows as flattening makes it grow. -/
theorem variableName_concat (path : List Text) (name : Text) :
    variableName (path ++ [name]) = shadeName (variableName path) name := by
  rw [variableName, variableName, shadeName, List.dropWhile_append]
  cases hpath : path.dropWhile (· = []) with
  | nil =>
    -- all names so far are empty
    by_cases hname : name = []
    · simp [hname]
    · simp [hname]
  | cons first rest =>
    have hfirst : first ≠ [] := by
      have := List.head_dropWhile_not (· = []) (l := path) (by simp [hpath])
      simpa [hpath] using this
    simp only [List.isEmpty_cons, Bool.false_eq_true, if_false, List.cons_append,
      List.filter_append, if_neg (intercalate_ne_nil hfirst _ _)]
    by_cases hname : name = "DEFAULT"
    · simp [hname]
    · rw [if_neg hname, List.filter_cons_of_pos (by simpa using hname), List.filter_nil,
        intercalate_concat]

/-! ### Values by themselves -/

/-- A name that is written for what is spread. -/
def IsSpread (name : Text) : Prop := Text.beginsWith "..." name = true

instance (name : Text) : Decidable (IsSpread name) :=
  inferInstanceAs (Decidable (Text.beginsWith "..." name = true))

/-- A path that leads through no spread. -/
def Plain (path : List Text) : Prop := ∀ name ∈ path, ¬ IsSpread name

instance (path : List Text) : Decidable (Plain path) :=
  inferInstanceAs (Decidable (∀ name ∈ path, ¬ IsSpread name))

/-- Strings and numbers, which can be colours. -/
def isColor : Value → Bool
  | .str _ | .int _ | .float _ => true
  | .null | .bool _ | .expr _ | .array _ | .object _ => false

/-- The line that declares a colour at a path. -/
def declaration (leaf : List Text × Value) : Text :=
  "  --color-" ++ variableName leaf.1 ++ ": " ++ colorText leaf.2.display ++ ";"

/-- The notice about a value at a path: a leaf that is no colour, or the first spread on the way. -/
def notice? (node : List Text × Value) : Option Notice :=
  if Plain node.1 then
    if node.2.fields? = none ∧ isColor node.2 = false then some (.noLiteral (variableName node.1))
    else none
  else if Plain node.1.dropLast then node.1.getLast?.map .colorSpread
  else none

/-- What flattening says of a value at a path. -/
def shadeAt (node : List Text × Value) : Option Shade :=
  if Plain node.1 then
    if node.2.fields? ≠ none then none
    else if isColor node.2 then some (.color (variableName node.1) (colorText node.2.display))
    else some (.noLiteral (variableName node.1))
  else if Plain node.1.dropLast then node.1.getLast?.map .spread
  else none

theorem Plain.concat (h : Plain path) (hname : ¬ IsSpread name) : Plain (path ++ [name]) := by
  intro other hother
  rcases List.mem_append.1 hother with hmem | hlast
  · exact h other hmem
  · obtain rfl := List.mem_singleton.1 hlast
    exact hname

theorem not_plain (hname : IsSpread name) (rest : List Text) : ¬ Plain (path ++ name :: rest) := by
  intro h
  exact h name (List.mem_append_right path List.mem_cons_self) hname

theorem shadeAt_object (h : Plain path) (fields : Record Value) :
    shadeAt (path, .object fields) = none := by
  rw [shadeAt, if_pos h]
  exact if_pos (Option.some_ne_none fields)

/-- The first spread on a way is met. -/
theorem shadeAt_spread (h : Plain path) (hname : IsSpread name) (v : Value) :
    shadeAt (path ++ [name], v) = some (.spread name) := by
  rw [shadeAt, if_neg (not_plain hname []), if_pos (by rwa [List.dropLast_concat]),
    List.getLast?_concat]
  rfl

/-- What is below a spread is not looked at. -/
theorem shadeAt_hidden (hname : IsSpread name) {rest : List Text} (hrest : rest ≠ []) (v : Value) :
    shadeAt (path ++ name :: rest, v) = none := by
  have hlast : (path ++ name :: rest).dropLast = path ++ name :: rest.dropLast := by
    rw [List.dropLast_append_of_ne_nil (List.cons_ne_nil name rest),
      List.dropLast_cons_of_ne_nil hrest]
  rw [shadeAt, if_neg (not_plain hname rest), hlast, if_neg (not_plain hname rest.dropLast)]

theorem shadesOf_leaf (h : Plain path) (hv : v.fields? = none) :
    shadesOf (variableName path) v = (shadeAt (path, v)).toList := by
  rw [shadeAt, if_pos h, if_neg (not_not_intro hv)]
  cases v with
  | object fields => cases hv
  | _ => rfl

/-! ### Flattening -/

/-- What flattening says of values, one after another, below a path. -/
def said (path : List Text) (found : List (List Text × Value)) : List Shade :=
  found.filterMap fun node => shadeAt (path ++ node.1, node.2)

theorem shades_cons (shown name : Text) (v : Value) (rest : List (Text × Value)) :
    shades shown ((name, v) :: rest) =
      (if IsSpread name then [.spread name] else shadesOf (shadeName shown name) v) ++
        shades shown rest := by
  rw [shades]
  rfl

/-- Fields are flattened one after another. -/
theorem shades_eq (h : ∀ field ∈ fields, ∀ path, Plain path →
      shadesOf (variableName path) field.2 = said path (nodes field.2)) (hpath : Plain path) :
    shades (variableName path) fields = said path (inside fields) := by
  induction fields with
  | nil => rfl
  | cons field rest ih =>
    obtain ⟨name, v⟩ := field
    have hrest := ih fun field hfield => h field (List.mem_cons_of_mem _ hfield)
    rw [shades_cons, hrest, inside, said, said, List.filterMap_append, List.filterMap_map]
    refine congrArg (· ++ _) ?_
    by_cases hname : IsSpread name
    · rw [if_pos hname, Value.nodes_eq, List.filterMap_cons]
      simp only [Function.comp_apply, shadeAt_spread hpath hname]
      refine congrArg _ (List.filterMap_eq_nil_iff.2 ?_).symm
      intro node hnode
      exact shadeAt_hidden hname (Value.ne_nil_of_mem_inside hnode) node.2
    · rw [if_neg hname, ← variableName_concat, h (name, v) List.mem_cons_self _ (hpath.concat hname)]
      refine List.filterMap_congr fun node _ => ?_
      rw [Function.comp_apply, List.append_assoc, List.singleton_append]

/-- Flattening says of each value in a value, depth first, what there is to say of it. -/
theorem shadesOf_eq (hpath : Plain path) :
    shadesOf (variableName path) v = said path (nodes v) := by
  induction v using Value.fieldInduction generalizing path with
  | leaf v hv =>
    rw [shadesOf_leaf hpath hv, Value.nodes_of_fields? hv, said, List.filterMap_cons,
      List.append_nil]
    cases shadeAt (path, v) <;> rfl
  | object fields ih =>
    rw [shadesOf, shades_eq (fun field hfield _ h => ih field hfield h) hpath, nodes, said, said,
      List.filterMap_cons, List.append_nil, shadeAt_object hpath]

/-- Flattening a whole palette. -/
theorem shades_all (colors : Record Value) :
    shades [] colors = (nodes (.object colors)).filterMap shadeAt := by
  have hroot : Plain [] := List.forall_mem_nil _
  exact @shadesOf_eq (.object colors) [] hroot

/-! ### Themes -/

/-- The fields of a palette that may be there: none if it is absent or null. -/
def paletteFields? : Option Value → Option (Record Value)
  | none | some .null => some []
  | some (.object fields) => some fields
  | some _ => none

theorem addPalettes_toList {palette : Option Value} (h : paletteFields? palette = some fields)
    (colors : Record Value) (rest : List Value) :
    addPalettes colors (palette.toList ++ rest) = addPalettes (mergeColors colors fields) rest := by
  rcases palette with - | v
  · obtain rfl : [] = fields := Option.some.inj h
    rfl
  · cases v with
    | null =>
      obtain rfl : [] = fields := Option.some.inj h
      rfl
    | object shades =>
      obtain rfl : shades = fields := Option.some.inj h
      rfl
    | _ => cases h

/-- The palettes of a theme are merged in silence. -/
theorem addPalettes_palettes {theme : Value} {own extending : Record Value}
    (hown : paletteFields? (theme.field? "colors") = some own)
    (hextending : paletteFields? ((theme.field? "extend").bind (Value.field? "colors")) =
      some extending) (hnames : (Record.names own).Nodup) :
    addPalettes [] (palettes theme) = .silent (mergeColors own extending) := by
  have hlast := addPalettes_toList hextending own []
  rw [List.append_nil] at hlast
  rw [palettes, addPalettes_toList hown, mergeColors_nil hnames, hlast]
  rfl

theorem declaration?_shadeAt (node : List Text × Value) :
    (shadeAt node).bind Shade.declaration? =
      if node.2.fields?.isNone && decide (Plain node.1 ∧ isColor node.2) then
        some (declaration node) else none := by
  obtain ⟨path, v⟩ := node
  rw [shadeAt]
  by_cases hpath : Plain path
  · cases v <;> simp [hpath, isColor, Value.fields?, Shade.declaration?, declaration]
  · rw [if_neg hpath]
    split
    · cases path.getLast? <;> simp [hpath, Shade.declaration?]
    · simp [hpath]

theorem notice?_shadeAt (node : List Text × Value) :
    (shadeAt node).bind Shade.notice? = notice? node := by
  obtain ⟨path, v⟩ := node
  rw [shadeAt, notice?]
  by_cases hpath : Plain path
  · rw [if_pos hpath, if_pos hpath]
    cases v <;> rfl
  · rw [if_neg hpath, if_neg hpath]
    split
    · cases path.getLast? <;> rfl
    · rfl

/-- The leaves that are declared, with the lines that declare them. -/
def declarations (colors : Record Value) : List Text :=
  ((leaves (.object colors)).filter fun leaf => Plain leaf.1 ∧ isColor leaf.2).map declaration

theorem declarations_eq (colors : Record Value) :
    (shades [] colors).filterMap Shade.declaration? = declarations colors := by
  rw [shades_all, List.filterMap_filterMap, declarations, leaves, List.filter_filter,
    ← List.filterMap_eq_map, List.filterMap_filter]
  refine List.filterMap_congr fun node _ => ?_
  rw [declaration?_shadeAt, Bool.and_comm]
  rfl

theorem notices_eq (colors : Record Value) :
    (shades [] colors).filterMap Shade.notice? = (nodes (.object colors)).filterMap notice? := by
  rw [shades_all, List.filterMap_filterMap]
  exact List.filterMap_congr fun node _ => notice?_shadeAt node

/-- The block of a theme whose palettes are merged in silence. -/
theorem colorBlock_eq {theme : Value} {merged : Record Value}
    (h : addPalettes [] (palettes theme) = .silent merged) :
    colorBlock theme =
      ⟨if declarations merged = [] then [] else Text.block [] "@theme" (declarations merged),
        (nodes (.object merged)).filterMap notice?⟩ := by
  rw [colorBlock, h, Reported.silent_andThen]
  simp only [declarations_eq, notices_eq, List.isEmpty_iff]

/-- **Colours are neither lost nor invented, and the extending palette wins.**  A theme may have a
palette of its own and one that extends it, each with distinct names at every depth.  In the merged
palette every path is listed once, and its leaves are those of the extending palette, and those of
the theme's own at which the extending one has nothing, and nothing but objects on the way.  The
block declares, in depth-first order, exactly the leaves that are colours and are reached through no
spread; it is empty only if there are none.  There is a notice for each of the other leaves that is
reached through no spread, one for each spread that is reached through no other, and no more. -/
theorem colors_declared {theme : Value} {own extending : Record Value}
    (hown : paletteFields? (theme.field? "colors") = some own)
    (hextending : paletteFields? ((theme.field? "extend").bind (Value.field? "colors")) =
      some extending)
    (hdistinct : Distinct (.object own)) (hdistinct' : Distinct (.object extending)) :
    ∃ merged, addPalettes [] (palettes theme) = .silent merged ∧
      ((nodes (.object merged)).map Prod.fst).Nodup ∧
      (∀ path v, (path, v) ∈ leaves (.object merged) ↔
        Leaf (.object extending) path v ∨
          Free (.object extending) path ∧ Leaf (.object own) path v) ∧
      (colorBlock theme).value =
        (if declarations merged = [] then []
        else Text.block [] "@theme" (declarations merged)) ∧
      ((colorBlock theme).value = [] ↔ declarations merged = []) ∧
      (colorBlock theme).notices = (nodes (.object merged)).filterMap notice? := by
  have hmerged := addPalettes_palettes hown hextending hdistinct.names
  have hall : Distinct (.object (mergeColors own extending)) :=
    distinct_mergeColors hdistinct hdistinct'
  refine ⟨mergeColors own extending, hmerged, Value.nodup_nodes hall, ?_, ?_, ?_, ?_⟩
  · intro path v
    rw [Value.mem_leaves hall, leaf_mergeColors hdistinct']
  · rw [colorBlock_eq hmerged]
  · rw [colorBlock_eq hmerged]
    by_cases hnone : declarations (mergeColors own extending) = []
    · simp only [hnone, if_true]
    · simp only [hnone, if_false, iff_false]
      exact List.cons_ne_nil _ _
  · rw [colorBlock_eq hmerged]

/-- An extending palette with an object for a leaf, a leaf below an object, a spread and an empty
name. -/
theorem colors_declared_shadowed :
    let own : Record Value :=
      [("brand", .object [("DEFAULT", .str " oklch(var(--p))"),
          ("soft", .object [("x", .str "#fff")]), ("flag", .bool true)]),
        ("...base", .object [("a", .str "red")]), ("ink", .str "black")]
    let extending : Record Value :=
      [("", .object [("DEFAULT", .int 5)]), ("ink", .object []),
        ("brand", .object [("soft", .str "white")])]
    let theme : Value :=
      .object [("colors", .object own), ("extend", .object [("colors", .object extending)])]
    let soft : List Text := ["brand", "soft"]
    let shadowed : List Text := ["brand", "soft", "x"]
    let flag : List Text := ["brand", "flag"]
    (∃ merged, addPalettes [] (palettes theme) = .silent merged ∧
      (soft, .str "white") ∈ leaves (.object merged) ∧
      (flag, .bool true) ∈ leaves (.object merged) ∧
      ∀ v, (shadowed, v) ∉ leaves (.object merged)) ∧
    colorBlock theme = ⟨["@theme \x7b", "  --color-brand: var(--color-primary);",
      "  --color-brand-soft: white;", "  --color-DEFAULT: 5;", "\x7d"],
      [.noLiteral "brand-flag", .colorSpread "...base"]⟩ := by
  intro own extending theme soft shadowed flag
  have hdistinct : Distinct (.object own) := by decide +kernel
  have hdistinct' : Distinct (.object extending) := by decide +kernel
  obtain ⟨merged, hmerged, -, hleaves, -⟩ :=
    @colors_declared theme own extending rfl rfl hdistinct hdistinct'
  refine ⟨⟨merged, hmerged, ?_, ?_, ?_⟩, by decide +kernel⟩
  · exact (hleaves _ _).2 (.inl ⟨by decide +kernel, rfl⟩)
  · -- the extending palette has an object for the brand, and no flag in it
    have hbrand : Record.get? "brand" extending = some (.object [("soft", .str "white")]) := by
      decide +kernel
    have hfree : Free (.object extending) flag := by
      rw [Value.free_object, hbrand]
      rintro _ ⟨rfl⟩
      rw [Value.free_object]
      rintro x ⟨⟩
    exact (hleaves _ _).2 (.inr ⟨hfree, by decide +kernel, rfl⟩)
  · intro v hmem
    have hnone : Value.at? shadowed (.object extending) = none := by decide +kernel
    have hsoft : Value.at? soft (.object extending) = some (.str "white") := by decide +kernel
    rcases (hleaves _ _).1 hmem with ⟨hfound, -⟩ | ⟨⟨-, hbefore⟩, -⟩
    · exact Option.some_ne_none v (hfound.symm.trans hnone)
    · exact hbefore soft _ ⟨["x"], rfl⟩ (by decide) hsoft rfl

end TailwindUpgrade.Theme
