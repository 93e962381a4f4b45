/-
TailwindUpgrade/Proofs/Theme/MergeLaws.lean

Laws of merging.  A palette that another one was merged into has taken it in: under each name of the
other stands a value that merging changes no more, and where this is so for all names, nothing
changes (`mergeColors_eq_self`).  The second time need not go the way of the first, since shades
that took the place of a colour are merged into themselves; that this leaves them as they are is
shown by induction on the value (`mergeValue_mergeValue`).

Names keep their places, and new ones come behind them in their own order (`names_mergeColors`).
This is so wherever there are shades on both sides, since these are merged as whole palettes are
(`at?_mergeColors`).

Main result: merging again changes nothing, merging with nothing changes nothing, and the order of
names is kept at every level (`mergeColors_again`).
-/
import TailwindUpgrade.Proofs.Theme.Merge

namespace TailwindUpgrade.Theme

open Value (Distinct at?)

variable {current : Option Value} {v : Value} {target source own other : Record Value}
  {path : List Text}

/-! ### Merging twice -/

/-- Nothing changes if under each name stands what merging leaves as it is. -/
theorem mergeColors_eq_self
    (h : ∀ field ∈ source, ∃ v, Record.get? field.1 target = some v ∧
      mergeValue (some v) field.2 = v) : mergeColors target source = target := by
  induction source with
  | nil => rfl
  | cons field rest ih =>
    obtain ⟨name, w⟩ := field
    obtain ⟨v, hv, hmerged⟩ := h (name, w) List.mem_cons_self
    rw [mergeColors, hv, hmerged, Record.set_eq_self hv]
    exact ih fun field hfield => h field (List.mem_cons_of_mem _ hfield)

/-- A palette is taken in at once, if each of its values is. -/
theorem mergeColors_mergeColors_of (hnames : (Record.names source).Nodup)
    (h : ∀ field ∈ source, ∀ current,
      mergeValue (some (mergeValue current field.2)) field.2 = mergeValue current field.2) :
    mergeColors (mergeColors target source) source = mergeColors target source := by
  apply mergeColors_eq_self
  rintro ⟨name, w⟩ hfield
  refine ⟨mergeValue (Record.get? name target) w, ?_, h (name, w) hfield _⟩
  rw [get?_mergeColors hnames, Record.get?_of_mem hnames hfield]

/-- A value is taken in at once, whatever stood there before. -/
theorem mergeValue_mergeValue (hv : Distinct v) :
    mergeValue (some (mergeValue current v)) v = mergeValue current v := by
  induction hv generalizing current with
  | leaf hv => rw [mergeValue_of_fields? hv, mergeValue_of_fields? hv]
  | @object fields hnames _ ih =>
    -- an object stands there now, whether or not one did before
    have hfirst : mergeValue current (.object fields) =
        .object (mergeColors (heldFields current) fields) := mergeValue_object hnames
    rw [hfirst]
    exact congrArg Value.object
      (mergeColors_mergeColors_of hnames fun field hfield _ => ih field hfield)

theorem mergeColors_mergeColors (hsource : Distinct (.object source)) :
    mergeColors (mergeColors target source) source = mergeColors target source :=
  mergeColors_mergeColors_of hsource.names fun field hfield _ =>
    mergeValue_mergeValue (hsource.of_mem field hfield)

/-! ### The order of names -/

/-- The names that are there stay in their places, and those that are new come behind them. -/
theorem names_mergeColors (h : (Record.names source).Nodup) :
    Record.names (mergeColors target source) =
      Record.names target ++ (Record.names source).filter (· ∉ Record.names target) := by
  induction source generalizing target with
  | nil => exact (List.append_nil _).symm
  | cons field rest ih =>
    obtain ⟨name, w⟩ := field
    obtain ⟨hname, hrest⟩ := List.nodup_cons.1 h
    have hnames : Record.names ((name, w) :: rest) = name :: Record.names rest := rfl
    rw [mergeColors, ih hrest, Record.names_set, hnames]
    by_cases hmem : name ∈ Record.names target
    · rw [if_pos hmem, List.filter_cons_of_neg (by simpa using hmem)]
    · rw [if_neg hmem, List.filter_cons_of_pos (by simpa using hmem), List.append_assoc,
        List.singleton_append]
      refine congrArg (Record.names target ++ name :: ·) (List.filter_congr fun other hother => ?_)
      -- the name itself does not come again
      have hne : other ≠ name := by
        rintro rfl
        exact hname hother
      simp [hne]

/-! ### Levels -/

/-- Where a path leads to shades on both sides, they are merged as whole palettes are. -/
theorem at?_mergeColors (hsource : Distinct (.object source))
    (hown : at? path (.object target) = some (.object own))
    (hother : at? path (.object source) = some (.object other)) :
    at? path (.object (mergeColors target source)) = some (.object (mergeColors own other)) := by
  induction path generalizing target source with
  | nil =>
    obtain rfl : target = own := Value.object.inj (Option.some.inj hown)
    obtain rfl : source = other := Value.object.inj (Option.some.inj hother)
    rfl
  | cons name path ih =>
    obtain ⟨v, hv, hown⟩ := Option.bind_eq_some_iff.1 hown
    obtain ⟨w, hw, hother⟩ := Option.bind_eq_some_iff.1 hother
    obtain ⟨shades, rfl⟩ := Value.exists_object_of_at? hown
    obtain ⟨fields, rfl⟩ := Value.exists_object_of_at? hother
    have hmerged : Record.get? name (mergeColors target source) =
        some (.object (mergeColors shades fields)) := by
      have hget : Record.get? name source = some (.object fields) := hw
      have hthere : Record.get? name target = some (.object shades) := hv
      rw [get?_mergeColors hsource.names, hget, hthere]
      rfl
    show (Record.get? name _).bind (at? path) = _
    rw [hmerged]
    exact ih (hsource.get? hw) hown hother

/-- **Merging the same palette again changes nothing**, at no depth and not in the order of names.
Merging a palette into nothing gives the palette, and merging nothing into one leaves it.  At every
level at which there are shades on both sides, what stands there afterwards is what merging these
gives: first the names that were there, in their order, and then those that are new, in theirs. -/
theorem mergeColors_again (hsource : Distinct (.object source)) :
    mergeColors (mergeColors target source) source = mergeColors target source ∧
      mergeColors [] source = source ∧
      mergeColors target [] = target ∧
      ∀ path own other, at? path (.object target) = some (.object own) →
        at? path (.object source) = some (.object other) →
        at? path (.object (mergeColors target source)) = some (.object (mergeColors own other)) ∧
          Record.names (mergeColors own other) =
            Record.names own ++ (Record.names other).filter (· ∉ Record.names own) := by
  refine ⟨mergeColors_mergeColors hsource, mergeColors_nil hsource.names, rfl, ?_⟩
  intro path own other hown hother
  have hnames : (Record.names other).Nodup := (Distinct.at? hsource hother).names
  exact ⟨at?_mergeColors hsource hown hother, names_mergeColors hnames⟩

/-- A colour that gives way to shades, which the second time are merged into themselves, and shades
of shades with names on both sides. -/
theorem mergeColors_again_replaced :
    let target : Record Value :=
      [("brand", .str "red"), ("ink", .object [("soft", .object [("b", .int 1), ("a", .int 2)]),
        ("hard", .null)])]
    let source : Record Value :=
      [("paper", .str "white"), ("ink", .object [("soft", .object [("c", .int 3), ("a", .int 4)])]),
        ("brand", .object [("DEFAULT", .object [("x", .str "blue")])])]
    let merged : Record Value :=
      [("brand", .object [("DEFAULT", .object [("x", .str "blue")])]),
        ("ink", .object [("soft", .object [("b", .int 1), ("a", .int 4), ("c", .int 3)]),
          ("hard", .null)]), ("paper", .str "white")]
    let soft : List Text := ["ink", "soft"]
    mergeColors target source = merged ∧ mergeColors merged source = merged ∧
      at? soft (.object merged) =
        some (.object (mergeColors [("b", .int 1), ("a", .int 2)] [("c", .int 3), ("a", .int 4)])) ∧
      Record.names (mergeColors [("b", .int 1), ("a", .int 2)] [("c", .int 3), ("a", .int 4)]) =
        ["b", "a", "c"] := by
  intro target source merged soft
  have hmerged : mergeColors target source = merged := by decide +kernel
  have hsource : Distinct (.object source) := by decide +kernel
  obtain ⟨hagain, -, -, hlevels⟩ := @mergeColors_again target source hsource
  obtain ⟨hsoft, hnames⟩ := hlevels soft [("b", .int 1), ("a", .int 2)]
    [("c", .int 3), ("a", .int 4)] (by decide +kernel) (by decide +kernel)
  rw [hmerged] at hagain hsoft
  exact ⟨hmerged, hagain, hsoft, hnames.trans (by decide +kernel)⟩

end TailwindUpgrade.Theme
