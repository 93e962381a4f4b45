/-
TailwindUpgrade/Proofs/Plugin/Typography.lean

The block of the typography plugin accounts for every override.  The overrides are a tree, and so
are the lines of the block.  Reading the lines of one override back adds one part to what has been
read before it, at any depth (`readLines_override`), and a tree of overrides is read back without
its spread expressions and what is below them (`kept`).  What a selector or a value is made of plays
no part in that.

Main result: the block is well nested and is read back as the overrides that are kept, and there is
a notice for each of the spread expressions that are not below another one (`typography_read_back`).
-/
import TailwindUpgrade.Proofs.Plugin.Nesting
import TailwindUpgrade.Proofs.Theme.Palette

namespace TailwindUpgrade.Plugin

open Theme (IsSpread Plain)
open Value (nodes inside)

variable {key : Text} {value : Value} {path : List Text}

/-! ### Overrides that are kept -/

/-- What is declared for a property: null resets it, written out or not. -/
def assigned (key : Text) (value : Value) : Text :=
  let shown : Text := if value = .null ∨ value = .str "null" then "initial" else cssValue value
  propertyName key ++ ": " ++ shown

mutual

/-- One override as a part of the block. -/
def keptOf (key : Text) : Value → Part
  | .object overrides => .block key (kept overrides)
  | value => .declaration (assigned key value)

/-- Overrides as the parts of a block, spread expressions left out with what is below them. -/
def kept : List (Text × Value) → List Part
  | [] => []
  | (key, value) :: rest => if IsSpread key then kept rest else keptOf key value :: kept rest

end

theorem isReset_iff : isReset value = true ↔ value = .null ∨ value = .str "null" := by
  cases value <;> simp [isReset]

/-- The line of a property is what is declared for it, in its place. -/
theorem overrideLine_eq (depth : Nat) (key : Text) (value : Value) :
    overrideLine depth key value =
      indent depth ++ assigned key value ++ LineKind.declaration.ending := by
  rw [overrideLine, assigned]
  simp only [isReset_iff, List.append_assoc]
  rfl

theorem overrideLinesOf_of_fields? (h : value.fields? = none) (depth : Nat) (key : Text) :
    overrideLinesOf depth key value = [overrideLine depth key value] := by
  cases value with
  | object overrides => cases h
  | _ => rfl

theorem keptOf_of_fields? (h : value.fields? = none) (key : Text) :
    keptOf key value = .declaration (assigned key value) := by
  cases value with
  | object overrides => cases h
  | _ => rfl

theorem overrideLines_cons (depth : Nat) (key : Text) (value : Value)
    (rest : List (Text × Value)) :
    overrideLines depth ((key, value) :: rest) =
      (if IsSpread key then [] else overrideLinesOf depth key value) ++
        overrideLines depth rest := rfl

/-! ### Reading the lines back -/

/-- The lines of overrides are read one override after another. -/
theorem readLines_each {overrides : List (Text × Value)}
    (h : ∀ override ∈ overrides, ∀ s,
      readLines s (overrideLinesOf (1 + s.depth) override.1 override.2) =
        some ⟨s.outer, s.parts ++ [keptOf override.1 override.2]⟩) (s : Nesting) :
    readLines s (overrideLines (1 + s.depth) overrides) =
      some ⟨s.outer, s.parts ++ kept overrides⟩ := by
  induction overrides generalizing s with
  | nil =>
    rw [kept, List.append_nil]
    rfl
  | cons override rest ih =>
    obtain ⟨key, value⟩ := override
    have hrest := ih fun override hmem => h override (List.mem_cons_of_mem _ hmem)
    rw [overrideLines_cons, kept]
    by_cases hkey : IsSpread key
    · rw [if_pos hkey, if_pos hkey, List.nil_append]
      exact hrest s
    · rw [if_neg hkey, if_neg hkey, readLines_append, h (key, value) List.mem_cons_self s,
        Option.bind_some]
      have hafter := hrest ⟨s.outer, s.parts ++ [keptOf key value]⟩
      rw [List.append_assoc, List.singleton_append] at hafter
      exact hafter

/-- The lines of one override are read as one part behind those before it. -/
theorem readLines_override (value : Value) (key : Text) (s : Nesting) :
    readLines s (overrideLinesOf (1 + s.depth) key value) =
      some ⟨s.outer, s.parts ++ [keptOf key value]⟩ := by
  induction value using Value.fieldInduction generalizing key s with
  | leaf value hvalue =>
    rw [overrideLinesOf_of_fields? hvalue, keptOf_of_fields? hvalue, overrideLine_eq]
    exact readLines_declaration s (assigned key value)
  | object overrides ih =>
    rw [overrideLinesOf, keptOf]
    apply readLines_block
    -- one more block is open around the lines in between
    exact readLines_each (fun override hmem s => ih override hmem override.1 s)
      ⟨(key, s.parts) :: s.outer, []⟩

/-- The lines of overrides are read back as what is kept of them. -/
theorem readBack_overrideLines (overrides : Record Value) :
    readBack (overrideLines 1 overrides) = some (kept overrides) := by
  have hread : readLines ⟨[], []⟩ (overrideLines 1 overrides) = some ⟨[], kept overrides⟩ :=
    readLines_each (fun override _ => readLines_override override.2 override.1) ⟨[], []⟩
  rw [readBack, hread]
  rfl

example :
    readBack (overrideLines 1 [("...base", .object [("...more", .null)]),
      ("a;\n  \x7d", .object [("fontSize", .str "null")]), ("--x", .int 5)]) =
        some [.block "a;\n  \x7d" [.declaration "font-size: initial"], .declaration "--x: 5"] :=
  rfl

/-! ### Spread expressions -/

/-- The spread expression that a path ends in, if it leads through no other. -/
def topmostSpread? (path : List Text) : Option Text :=
  path.getLast?.filter fun name => IsSpread name ∧ Plain path.dropLast

/-- Below a spread expression there is no other that counts. -/
theorem topmostSpread?_cons_of_isSpread (hkey : IsSpread key) (path : List Text) :
    topmostSpread? (key :: path) = if path = [] then some key else none := by
  cases path with
  | nil =>
    have hplain : Plain [] := List.forall_mem_nil _
    exact Option.filter_some_pos (decide_eq_true ⟨hkey, hplain⟩)
  | cons name path =>
    apply Option.filter_eq_none_iff.mpr
    intro last _ hlast
    have hplain : Plain (key :: (name :: path).dropLast) := (of_decide_eq_true hlast).2
    exact hplain key List.mem_cons_self hkey

/-- A key that is no spread expression makes no difference in front of a path. -/
theorem topmostSpread?_cons (hkey : ¬ IsSpread key) (path : List Text) :
    topmostSpread? (key :: path) = topmostSpread? path := by
  cases path with
  | nil =>
    apply Option.filter_some_neg
    exact decide_eq_false fun h => hkey h.1
  | cons name path =>
    have hplain : Plain (key :: (name :: path).dropLast) ↔ Plain (name :: path).dropLast := by
      simp [Plain, hkey]
    rw [topmostSpread?, topmostSpread?, List.getLast?_cons_cons, List.dropLast_cons_cons]
    simp only [hplain]

theorem spreads_cons (key : Text) (value : Value) (rest : List (Text × Value)) :
    spreads ((key, value) :: rest) =
      (if IsSpread key then [key] else spreadsOf value) ++ spreads rest := rfl

/-- The spread expressions at the ends of paths, as far as they lead through no other. -/
def topmostSpreads (found : List (List Text × Value)) : List Text :=
  found.filterMap fun node => topmostSpread? node.1

theorem spreads_each {overrides : List (Text × Value)}
    (h : ∀ override ∈ overrides, spreadsOf override.2 = topmostSpreads (nodes override.2)) :
    spreads overrides = topmostSpreads (inside overrides) := by
  induction overrides with
  | nil => rfl
  | cons override rest ih =>
    obtain ⟨key, value⟩ := override
    have hrest := ih fun override hmem => h override (List.mem_cons_of_mem _ hmem)
    rw [spreads_cons, inside, topmostSpreads, List.filterMap_append, List.filterMap_map, hrest]
    refine congrArg (· ++ _) ?_
    by_cases hkey : IsSpread key
    · rw [if_pos hkey, Value.nodes_eq, List.filterMap_cons]
      simp only [Function.comp_apply, topmostSpread?_cons_of_isSpread hkey, if_true]
      refine congrArg _ (List.filterMap_eq_nil_iff.mpr ?_).symm
      intro node hnode
      exact if_neg (Value.ne_nil_of_mem_inside hnode)
    · rw [if_neg hkey, h (key, value) List.mem_cons_self, topmostSpreads]
      refine List.filterMap_congr fun node _ => ?_
      exact (topmostSpread?_cons hkey node.1).symm

theorem spreadsOf_eq (value : Value) : spreadsOf value = topmostSpreads (nodes value) := by
  induction value using Value.fieldInduction with
  | leaf value hvalue =>
    rw [Value.nodes_of_fields? hvalue]
    cases value with
    | object overrides => cases hvalue
    | _ => rfl
  | object overrides ih =>
    rw [spreadsOf, nodes, spreads_each ih]
    rfl

/-- The spread expressions that are left out are those that are not below another one. -/
theorem spreads_eq (overrides : Record Value) :
    spreads overrides = topmostSpreads (inside overrides) :=
  spreads_each fun override _ => spreadsOf_eq override.2

/-! ### The block -/

/-- Any overrides can be configured. -/
theorem typographyOverrides_surjective : Function.Surjective typographyOverrides := by
  intro overrides
  refine ⟨.object [("theme", .object [("extend", .object [("typography", .object [("DEFAULT",
    .object [("css", .object overrides)])])])])], ?_⟩
  rfl

/-- **The typography block is well nested and accounts for every override.**  Its lines open a
block, close one or declare something, and are indented by the blocks that are open around them.
They are read back as the tree of overrides without its spread expressions and what is below them:
a selector is there as it was written, and a property in kebab case, with its value or as reset.
There is one notice for each spread expression that is below no other, in their order. -/
theorem typography_read_back (config : Value) :
    let overrides := typographyOverrides config
    let lines := overrideLines 1 overrides
    let head : Text := "@plugin \"@tailwindcss/typography\""
    WellNested lines ∧ readBack lines = some (kept overrides) ∧
      (typographyBlock config).value =
        (if lines = [] then [head ++ ";"] else Text.block [] head lines) ∧
      (typographyBlock config).notices =
        (topmostSpreads (inside overrides)).map .typographySpread := by
  intro overrides lines head
  have hread := readBack_overrideLines overrides
  refine ⟨wellNested_of_readBack hread, hread, ?_, ?_⟩
  · simp only [typographyBlock, List.isEmpty_iff]
    rfl
  · rw [typographyBlock, spreads_eq]

end TailwindUpgrade.Plugin
