/-
TailwindUpgrade/Proofs/Literal/Path.lean

Values inside of values.  A path is a list of names that leads from an object through its fields to
a value in it (`at?`); a leaf is a path to a value that is no object.  What does not lead through
objects is not looked into, so an array is a leaf.

`nodes` lists what is in a value, depth first.  If no object has two fields of one name, then each
value is listed at its path (`mem_nodes`), and no path is listed twice (`nodup_nodes`).
-/
import Mathlib.Data.List.Nodup
import TailwindUpgrade.Literal.Value
import TailwindUpgrade.Proofs.Literal.Record

namespace TailwindUpgrade.Value

variable {v w : Value} {fields : Record Value} {path : List Text}

/-! ### Paths -/

/-- The value to which a path leads. -/
def at? : List Text → Value → Option Value
  | [], v => some v
  | name :: path, v => (v.field? name).bind (at? path)

/-- The path leads to a value that is no object. -/
def Leaf (v : Value) (path : List Text) (w : Value) : Prop := at? path v = some w ∧ w.fields? = none

/-- The path leads to nothing, and through nothing but objects on its way. -/
def Free (v : Value) (path : List Text) : Prop :=
  at? path v = none ∧ ∀ before w, before <+: path → before ≠ path → at? before v = some w →
    w.fields? ≠ none

theorem field?_of_fields? (h : v.fields? = none) (name : Text) : v.field? name = none := by
  cases v with
  | object fields => cases h
  | _ => rfl

theorem eq_object (h : v.fields? ≠ none) : ∃ fields, v = .object fields := by
  cases v with
  | object fields => exact ⟨fields, rfl⟩
  | _ => exact absurd rfl h

theorem leaf_cons {name : Text} :
    Leaf v (name :: path) w ↔ ∃ x, v.field? name = some x ∧ Leaf x path w := by
  rw [Leaf, at?, Option.bind_eq_some_iff]
  constructor
  · rintro ⟨⟨x, hx, hpath⟩, hw⟩
    exact ⟨x, hx, hpath, hw⟩
  · rintro ⟨x, hx, hpath, hw⟩
    exact ⟨⟨x, hx, hpath⟩, hw⟩

/-- In a value that is no object there is nothing but the value. -/
theorem not_leaf_cons (h : v.fields? = none) {name : Text} : ¬ Leaf v (name :: path) w := by
  rw [leaf_cons, field?_of_fields? h]
  rintro ⟨x, hx, -⟩
  cases hx

/-- A path that leads to an object leads through one. -/
theorem exists_object_of_at? (h : at? path v = some (.object fields)) :
    ∃ fields', v = .object fields' := by
  apply eq_object
  intro hv
  cases path with
  | nil =>
    obtain rfl : v = .object fields := Option.some.inj h
    cases hv
  | cons name path =>
    rw [at?, field?_of_fields? hv] at h
    cases h

/-- An object is not itself a leaf. -/
theorem not_leaf_object : ¬ Leaf (.object fields) [] w := by
  rintro ⟨hself, hleaf⟩
  obtain rfl : Value.object fields = w := Option.some.inj hself
  cases hleaf

theorem not_free_nil : ¬ Free v [] := by
  rintro ⟨hnone, -⟩
  cases hnone

theorem not_free (h : v.fields? = none) : ¬ Free v path := by
  cases path with
  | nil => exact not_free_nil
  | cons name path =>
    rintro ⟨-, hbefore⟩
    exact hbefore [] v (List.nil_prefix) (List.cons_ne_nil name path).symm rfl h

/-- A path through an object is free if its rest is free in the field that it leads through, if
there is one. -/
theorem free_object {name : Text} :
    Free (.object fields) (name :: path) ↔
      ∀ x, Record.get? name fields = some x → Free x path := by
  constructor
  · rintro ⟨hnone, hbefore⟩ x hx
    have hstep : ∀ p, at? (name :: p) (.object fields) = at? p x := by
      intro p
      show (Record.get? name fields).bind (at? p) = at? p x
      rw [hx, Option.bind_some]
    refine ⟨(hstep path).symm.trans hnone, fun before w hpre hne hw => ?_⟩
    apply hbefore (name :: before) w (List.cons_prefix_cons.2 ⟨rfl, hpre⟩)
    · intro heq
      exact hne (List.cons.inj heq).2
    · exact (hstep before).trans hw
  · intro h
    refine ⟨?_, fun before w hpre hne hw => ?_⟩
    · show (Record.get? name fields).bind (at? path) = none
      rw [Option.bind_eq_none_iff]
      exact fun x hx => (h x hx).1
    · cases before with
      | nil =>
        obtain rfl : Value.object fields = w := Option.some.inj hw
        exact Option.some_ne_none fields
      | cons first before =>
        obtain ⟨rfl, hbefore⟩ := List.cons_prefix_cons.1 hpre
        obtain ⟨x, hx, hw⟩ := Option.bind_eq_some_iff.1 hw
        refine (h x hx).2 before w hbefore ?_ hw
        rintro rfl
        exact hne rfl

/-! ### Induction through objects -/

mutual

/-- What holds of everything that is no object, and of each object if it holds of its fields, holds
of all values. -/
theorem fieldInduction {motive : Value → Prop} (leaf : ∀ v, v.fields? = none → motive v)
    (object : ∀ fields : Record Value, (∀ field ∈ fields, motive field.2) →
      motive (.object fields)) : ∀ v, motive v
  | .object fields => object fields (forall_fields leaf object fields)
  | .null => leaf _ rfl
  | .bool _ => leaf _ rfl
  | .int _ => leaf _ rfl
  | .float _ => leaf _ rfl
  | .str _ => leaf _ rfl
  | .expr _ => leaf _ rfl
  | .array _ => leaf _ rfl

theorem forall_fields {motive : Value → Prop} (leaf : ∀ v, v.fields? = none → motive v)
    (object : ∀ fields : Record Value, (∀ field ∈ fields, motive field.2) →
      motive (.object fields)) : ∀ fields : List (Text × Value), ∀ field ∈ fields, motive field.2
  | [] => List.forall_mem_nil _
  | (_, v) :: rest => List.forall_mem_cons.2
    ⟨fieldInduction leaf object v, forall_fields leaf object rest⟩

end

/-! ### Distinct names -/

/-- No object to which a path leads has two fields of one name. -/
inductive Distinct : Value → Prop
  | leaf {v : Value} : v.fields? = none → Distinct v
  | object {fields : Record Value} :
      (Record.names fields).Nodup → (∀ field ∈ fields, Distinct field.2) →
      Distinct (.object fields)

theorem Distinct.names (h : Distinct (.object fields)) : (Record.names fields).Nodup := by
  cases h with
  | leaf h => cases h
  | object h _ => exact h

theorem Distinct.of_mem (h : Distinct (.object fields)) : ∀ field ∈ fields, Distinct field.2 := by
  cases h with
  | leaf h => cases h
  | object _ h => exact h

theorem distinct_object :
    Distinct (.object fields) ↔
      (Record.names fields).Nodup ∧ ∀ field ∈ fields, Distinct field.2 :=
  ⟨fun h => ⟨h.names, h.of_mem⟩, fun h => .object h.1 h.2⟩

mutual

/-- Whether the names in a value are distinct. -/
def decideDistinct : (v : Value) → Decidable (Distinct v)
  | .object fields =>
    have := decideFields fields
    decidable_of_iff _ distinct_object.symm
  | .null => .isTrue (.leaf rfl)
  | .bool _ => .isTrue (.leaf rfl)
  | .int _ => .isTrue (.leaf rfl)
  | .float _ => .isTrue (.leaf rfl)
  | .str _ => .isTrue (.leaf rfl)
  | .expr _ => .isTrue (.leaf rfl)
  | .array _ => .isTrue (.leaf rfl)

/-- Whether this is so in each of some fields. -/
def decideFields : (fields : List (Text × Value)) → Decidable (∀ field ∈ fields, Distinct field.2)
  | [] => .isTrue (List.forall_mem_nil _)
  | (_, v) :: rest =>
    have := decideDistinct v
    have := decideFields rest
    decidable_of_iff _ List.forall_mem_cons.symm

end

instance (v : Value) : Decidable (Distinct v) := decideDistinct v

theorem Distinct.get? (h : Distinct (.object fields)) {name : Text}
    (hv : Record.get? name fields = some v) : Distinct v :=
  h.of_mem _ (Record.mem_of_get? hv)

/-- What a path leads to has distinct names if the whole value does. -/
theorem Distinct.at? (h : Distinct v) (hw : Value.at? path v = some w) : Distinct w := by
  induction path generalizing v with
  | nil =>
    obtain rfl : v = w := Option.some.inj hw
    exact h
  | cons name path ih =>
    obtain ⟨x, hx, hpath⟩ := Option.bind_eq_some_iff.1 hw
    cases v with
    | object fields => exact ih (h.get? hx) hpath
    | _ => cases hx

/-- Setting a field keeps names distinct. -/
theorem Distinct.set (h : Distinct (.object fields)) (hv : Distinct v) (name : Text) :
    Distinct (.object (Record.set name v fields)) := by
  refine .object ?_ fun field hfield => ?_
  · rw [Record.names_set]
    split
    · exact h.names
    · next hname =>
      rw [List.nodup_append]
      refine ⟨h.names, List.nodup_singleton name, fun a ha b hb => ?_⟩
      obtain rfl := List.mem_singleton.1 hb
      rintro rfl
      exact hname ha
  · rcases Record.mem_of_mem_set hfield with rfl | hmem
    · exact hv
    · exact h.of_mem field hmem

/-! ### What is in a value -/

mutual

/-- The values in a value with the paths to them, depth first: the value itself, then what is in its
fields, in their order. -/
def nodes : Value → List (List Text × Value)
  | .object fields => ([], .object fields) :: inside fields
  | v => [([], v)]

/-- The values in the fields of an object. -/
def inside : List (Text × Value) → List (List Text × Value)
  | [] => []
  | (name, v) :: rest => (nodes v).map (fun node => (name :: node.1, node.2)) ++ inside rest

end

/-- The leaves of a value, depth first. -/
def leaves (v : Value) : List (List Text × Value) :=
  (nodes v).filter fun node => node.2.fields?.isNone

theorem nodes_of_fields? (h : v.fields? = none) : nodes v = [([], v)] := by
  cases v with
  | object fields => cases h
  | _ => rfl

/-- The value itself comes first, and what is in its fields behind it. -/
theorem nodes_eq (v : Value) : nodes v = ([], v) :: inside (v.fields?.getD []) := by
  cases v <;> rfl

/-- What is in the fields is what is in each of them, below its name. -/
theorem mem_inside {node : List Text × Value} :
    node ∈ inside fields ↔
      ∃ field ∈ fields, ∃ path, node.1 = field.1 :: path ∧ (path, node.2) ∈ nodes field.2 := by
  induction fields with
  | nil => simp [inside]
  | cons field rest ih =>
    obtain ⟨name, v⟩ := field
    rw [inside, List.mem_append, ih, List.mem_map, List.exists_mem_cons_iff]
    refine or_congr ?_ Iff.rfl
    constructor
    · rintro ⟨⟨path, w⟩, hmem, rfl⟩
      exact ⟨path, rfl, hmem⟩
    · rintro ⟨path, hpath, hmem⟩
      exact ⟨(path, node.2), hmem, Prod.ext hpath.symm rfl⟩

/-- Only the value itself is listed at the empty path. -/
theorem ne_nil_of_mem_inside {node : List Text × Value} (h : node ∈ inside fields) :
    node.1 ≠ [] := by
  obtain ⟨field, -, path, hpath, -⟩ := mem_inside.1 h
  rw [hpath]
  exact List.cons_ne_nil field.1 path

theorem mem_nodes_object {node : List Text × Value} :
    node ∈ nodes (.object fields) ↔ node = ([], .object fields) ∨ node ∈ inside fields := by
  rw [nodes, List.mem_cons]

/-- Each value is listed at its path. -/
theorem mem_nodes (h : Distinct v) : (path, w) ∈ nodes v ↔ at? path v = some w := by
  induction h generalizing path with
  | @leaf v hv =>
    rw [nodes_of_fields? hv, List.mem_singleton, Prod.mk.injEq]
    cases path with
    | nil => simp [at?, eq_comm]
    | cons name path => simp [at?, field?_of_fields? hv]
  | @object fields hnames hfields ih =>
    rw [mem_nodes_object, mem_inside]
    cases path with
    | nil => simp [at?, eq_comm]
    | cons name path =>
      rw [at?, Option.bind_eq_some_iff]
      constructor
      · rintro (hself | ⟨⟨name', x⟩, hmem, path', hpath, hnode⟩)
        · cases hself
        · obtain ⟨rfl, rfl⟩ := List.cons.inj hpath
          exact ⟨x, Record.get?_of_mem hnames hmem, (ih _ hmem).1 hnode⟩
      · rintro ⟨x, hx, hat⟩
        have hmem := Record.mem_of_get? hx
        exact .inr ⟨(name, x), hmem, path, rfl, (ih _ hmem).2 hat⟩

theorem mem_leaves (h : Distinct v) : (path, w) ∈ leaves v ↔ Leaf v path w := by
  rw [leaves, List.mem_filter, mem_nodes h, Option.isNone_iff_eq_none, Leaf]

/-- What is in fields is listed at distinct paths, if this is so in each field. -/
theorem nodup_inside (hnames : (Record.names fields).Nodup)
    (h : ∀ field ∈ fields, ((nodes field.2).map Prod.fst).Nodup) :
    ((inside fields).map Prod.fst).Nodup := by
  induction fields with
  | nil => exact List.nodup_nil
  | cons field rest ih =>
    obtain ⟨name, v⟩ := field
    rw [Record.names, List.map_cons, List.nodup_cons] at hnames
    have hfirst : ((nodes v).map fun node => name :: node.1) =
        ((nodes v).map Prod.fst).map (name :: ·) := by
      rw [List.map_map]
      rfl
    rw [inside, List.map_append, List.map_map]
    show (((nodes v).map fun node => name :: node.1) ++ _).Nodup
    rw [hfirst, List.nodup_append]
    refine ⟨?_, ih hnames.2 fun field hmem => h field (List.mem_cons_of_mem _ hmem), ?_⟩
    · exact (h (name, v) List.mem_cons_self).map fun p q hpq => (List.cons.inj hpq).2
    · -- the paths into another field begin with its name
      intro p hp q hq
      rintro rfl
      obtain ⟨tail, -, rfl⟩ := List.mem_map.1 hp
      obtain ⟨node, hnode, hpath⟩ := List.mem_map.1 hq
      obtain ⟨other, hother, tail', htail, -⟩ := mem_inside.1 hnode
      obtain rfl : other.1 = name := (List.cons.inj (htail.symm.trans hpath)).1
      exact hnames.1 (List.mem_map.2 ⟨other, hother, rfl⟩)

/-- No path is listed twice. -/
theorem nodup_nodes (h : Distinct v) : ((nodes v).map Prod.fst).Nodup := by
  induction h with
  | leaf hv =>
    rw [nodes_of_fields? hv]
    exact List.nodup_singleton []
  | @object fields hnames hfields ih =>
    rw [nodes, List.map_cons, List.nodup_cons]
    refine ⟨fun hmem => ?_, nodup_inside hnames ih⟩
    obtain ⟨node, hnode, hpath⟩ := List.mem_map.1 hmem
    obtain ⟨field, -, path, hcons, -⟩ := mem_inside.1 hnode
    cases hpath.symm.trans hcons

end TailwindUpgrade.Value
