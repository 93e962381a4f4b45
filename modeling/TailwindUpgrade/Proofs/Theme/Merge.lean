/-
TailwindUpgrade/Proofs/Theme/Merge.lean

Merged palettes.  Merging looks at one name at a time: under it stands what the second palette has
there, merged into what the first one has, or what the first one has if the second has nothing
(`get?_mergeColors`).  Names stay distinct at every depth (`distinct_mergeColors`).

Along a path this adds up to one law: the leaves of the merged palette are those of the second, and
those of the first at which the second has nothing, and nothing but shades on the way
(`leaf_mergeColors`).
-/
import TailwindUpgrade.Proofs.Literal.Path
import TailwindUpgrade.Theme.Block

namespace TailwindUpgrade.Theme

open Value (Leaf Free Distinct)

variable {current : Option Value} {v w : Value} {target source : Record Value} {path : List Text}

/-! ### One name at a time -/

/-- The fields of what stands under a name, if that is an object. -/
def heldFields (current : Option Value) : Record Value := (current.bind Value.fields?).getD []

/-- What is no object replaces what stands there. -/
theorem mergeValue_of_fields? (h : v.fields? = none) : mergeValue current v = v := by
  cases v with
  | object fields => cases h
  | _ => rfl

/-- Where nothing stands, what is merged is all that there is. -/
theorem mergeValue_none (v : Value) : mergeValue none v = v := by
  cases v <;> rfl

theorem mergeColors_of_nodup (h : (Record.names target ++ Record.names source).Nodup) :
    mergeColors target source = target ++ source := by
  induction source generalizing target with
  | nil => exact (List.append_nil target).symm
  | cons field rest ih =>
    obtain ⟨name, v⟩ := field
    have hname : name ∉ Record.names target := by
      intro hmem
      exact (List.nodup_append.1 h).2.2 name hmem name List.mem_cons_self rfl
    have hnames : Record.names (target ++ [(name, v)]) = Record.names target ++ [name] :=
      List.map_append
    rw [mergeColors, Record.get?_eq_none hname, mergeValue_none, Record.set_of_not_mem hname, ih,
      List.append_assoc, List.singleton_append]
    rw [hnames, List.append_assoc]
    exact h

/-- Merging into nothing gives the palette itself. -/
theorem mergeColors_nil (h : (Record.names source).Nodup) : mergeColors [] source = source :=
  mergeColors_of_nodup h

/-- An object is merged into the fields of the object that stands there, or into none. -/
theorem mergeValue_object (h : (Record.names source).Nodup) :
    mergeValue current (.object source) = .object (mergeColors (heldFields current) source) := by
  rcases current with - | x
  · exact congrArg Value.object (mergeColors_nil h).symm
  · cases x with
    | object fields => rfl
    | _ => exact congrArg Value.object (mergeColors_nil h).symm

/-- What stands under a name in a merged palette. -/
theorem get?_mergeColors (h : (Record.names source).Nodup) (name : Text) :
    Record.get? name (mergeColors target source) =
      match Record.get? name source with
      | none => Record.get? name target
      | some v => some (mergeValue (Record.get? name target) v) := by
  induction source generalizing target with
  | nil => rfl
  | cons field rest ih =>
    obtain ⟨other, v⟩ := field
    rw [Record.names, List.map_cons, List.nodup_cons] at h
    rw [mergeColors, ih h.2]
    by_cases hname : name = other
    · subst hname
      rw [Record.get?_eq_none h.1, Record.get?_cons_self, Record.get?_set_self]
    · rw [Record.get?_cons_of_ne hname, Record.get?_set_of_ne hname]

/-! ### Distinct names -/

/-- Merging keeps names distinct, if it does so under each name. -/
theorem distinct_mergeColors_of (htarget : Distinct (.object target))
    (h : ∀ field ∈ source, ∀ current, (∀ x, current = some x → Distinct x) →
      Distinct (mergeValue current field.2)) :
    Distinct (.object (mergeColors target source)) := by
  induction source generalizing target with
  | nil => exact htarget
  | cons field rest ih =>
    obtain ⟨name, v⟩ := field
    have hmerged : Distinct (mergeValue (Record.get? name target) v) :=
      h (name, v) List.mem_cons_self _ fun x hx => htarget.get? hx
    exact ih (htarget.set hmerged name) fun field hfield => h field (List.mem_cons_of_mem _ hfield)

theorem distinct_heldFields (h : ∀ x, current = some x → Distinct x) :
    Distinct (.object (heldFields current)) := by
  have hnone : Distinct (.object []) := .object List.nodup_nil (List.forall_mem_nil _)
  rcases current with - | x
  · exact hnone
  · cases x with
    | object fields => exact h _ rfl
    | _ => exact hnone

theorem distinct_mergeValue (hv : Distinct v) (h : ∀ x, current = some x → Distinct x) :
    Distinct (mergeValue current v) := by
  induction hv generalizing current with
  | leaf hv =>
    rw [mergeValue_of_fields? hv]
    exact .leaf hv
  | object hnames _ ih =>
    rw [mergeValue_object hnames]
    exact distinct_mergeColors_of (distinct_heldFields h) fun field hfield _ hcurrent =>
      ih field hfield hcurrent

/-- Merging palettes with distinct names gives such a palette. -/
theorem distinct_mergeColors (htarget : Distinct (.object target))
    (hsource : Distinct (.object source)) : Distinct (.object (mergeColors target source)) :=
  distinct_mergeColors_of htarget fun field hfield _ hcurrent =>
    distinct_mergeValue (hsource.of_mem field hfield) hcurrent

/-! ### Leaves -/

/-- What is below a name in what stands there is below that name in its fields. -/
theorem exists_leaf_cons {name : Text} :
    (∃ x, current = some x ∧ Leaf x (name :: path) w) ↔
      ∃ y, Record.get? name (heldFields current) = some y ∧ Leaf y path w := by
  rcases current with - | x
  · simp [heldFields, Record.get?]
  · cases hx : x.fields? with
    | none => simp [heldFields, hx, Record.get?, Value.not_leaf_cons hx]
    | some fields =>
      obtain ⟨fields', rfl⟩ := Value.eq_object (hx.trans_ne (Option.some_ne_none fields))
      simp only [Option.some.injEq, exists_eq_left', Value.leaf_cons]
      rfl

/-- A leaf of what is merged under a name is one of what was merged into it; or one of what stood
there, where the path is free. -/
theorem leaf_mergeValue (hv : Distinct v) :
    Leaf (mergeValue current v) path w ↔
      Leaf v path w ∨ Free v path ∧ ∃ x, current = some x ∧ Leaf x path w := by
  induction path generalizing current v with
  | nil =>
    have hfree : ¬ Free v [] := Value.not_free_nil
    rw [or_iff_left fun h => hfree h.1]
    by_cases hleaf : v.fields? = none
    · rw [mergeValue_of_fields? hleaf]
    · -- an object stays an object
      obtain ⟨fields, rfl⟩ := Value.eq_object hleaf
      rw [mergeValue_object hv.names]
      exact iff_of_false Value.not_leaf_object Value.not_leaf_object
  | cons name path ih =>
    by_cases hleaf : v.fields? = none
    · have hfree : ¬ Free v (name :: path) := Value.not_free hleaf
      rw [or_iff_left fun h => hfree h.1, mergeValue_of_fields? hleaf]
    · obtain ⟨fields, rfl⟩ := Value.eq_object hleaf
      rw [mergeValue_object hv.names, Value.leaf_cons, Value.leaf_cons, Value.free_object,
        exists_leaf_cons]
      simp only [Value.field?, get?_mergeColors hv.names]
      cases hname : Record.get? name fields with
      | none => simp
      | some x =>
        have hstep : Leaf (mergeValue (Record.get? name (heldFields current)) x) path w ↔
            Leaf x path w ∨ Free x path ∧
              ∃ y, Record.get? name (heldFields current) = some y ∧ Leaf y path w :=
          ih (hv.get? hname)
        simpa using hstep

/-- The leaves of a merged palette are those of the palette that is merged into the other, and those
of the other at free paths. -/
theorem leaf_mergeColors (hsource : Distinct (.object source)) :
    Leaf (.object (mergeColors target source)) path w ↔
      Leaf (.object source) path w ∨ Free (.object source) path ∧ Leaf (.object target) path w := by
  have hmerged : mergeValue (some (.object target)) (.object source) =
      .object (mergeColors target source) := rfl
  rw [← hmerged, leaf_mergeValue hsource]
  simp only [Option.some.injEq, exists_eq_left']

end TailwindUpgrade.Theme
