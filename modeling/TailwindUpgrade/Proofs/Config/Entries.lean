/-
TailwindUpgrade/Proofs/Config/Entries.lean

The entries of an object, read one by one.  Entries that are read whole are gathered, each by itself
(`gather_append`): the record holds what each of them gave, in order, and the notices are those of
the entries one after another.  So it is if the lenient reading comes to the end of the object, the
keys are distinct and no entry is broken off (`entries_eq`).  The first one that is breaks off all
of them, behind the notices of those before it and its own (`entries_brokenOff`).

For an object of plain data that was printed, this says that the record holds one field for each
field that was printed, if each of them is read without a notice (`entries_json`).
-/
import TailwindUpgrade.Config.Part
import TailwindUpgrade.Proofs.Literal.Printed

namespace TailwindUpgrade.Config

variable {ν α σ : Type}

/-! ### Gathering -/

/-- What an entry gives to a record, if it gives anything. -/
def given (read : Text → σ → Reported ν (Option α)) (entry : Text × σ) : Option (Text × α) :=
  (read entry.1 entry.2).value.map fun value => (entry.1, value)

/-- What each entry gives, in order, with the notices of one entry after those of another. -/
def gathered (read : Text → σ → Reported ν (Option α)) (list : List (Text × σ)) :
    Reported ν (Record α) :=
  ⟨list.filterMap (given read), list.flatMap fun entry => (read entry.1 entry.2).notices⟩

variable {read : Text → σ → Reported ν (Option α)}

/-- What is given under distinct keys stands under distinct names. -/
theorem nodup_gathered {list : List (Text × σ)} (h : (list.map Prod.fst).Nodup) :
    ((gathered read list).value.map Prod.fst).Nodup := by
  -- the names are those of the entries that give something
  refine h.sublist ?_
  rw [gathered]
  induction list with
  | nil => exact .slnil
  | cons entry list ih =>
    have ih := ih (List.nodup_cons.1 h).2
    rw [List.filterMap_cons]
    split
    · exact ih.cons _
    · next field hfield =>
      obtain ⟨value, -, rfl⟩ := Option.map_eq_some_iff.1 hfield
      exact ih.cons_cons _

theorem mem_gathered {list : List (Text × σ)} {name : Text} {value : α} :
    (name, value) ∈ (gathered read list).value ↔
      ∃ source, (name, source) ∈ list ∧ (read name source).value = some value := by
  rw [gathered, List.mem_filterMap]
  constructor
  · rintro ⟨⟨key, source⟩, hentry, hgiven⟩
    obtain ⟨v, hv, hfield⟩ := Option.map_eq_some_iff.1 hgiven
    obtain ⟨rfl, rfl⟩ := Prod.mk.inj hfield
    exact ⟨source, hentry, hv⟩
  · rintro ⟨source, hentry, hv⟩
    exact ⟨(name, source), hentry, Option.map_eq_some_iff.2 ⟨value, hv, rfl⟩⟩

/-- Under a key stands what its entry gives, or nothing if it gives nothing. -/
theorem get?_gathered {list : List (Text × σ)} (h : (list.map Prod.fst).Nodup) {entry : Text × σ}
    (hentry : entry ∈ list) :
    Record.get? entry.1 (gathered read list).value = (read entry.1 entry.2).value := by
  cases hvalue : (read entry.1 entry.2).value with
  | some value =>
    apply Record.get?_of_mem (nodup_gathered h)
    exact mem_gathered.2 ⟨entry.2, hentry, hvalue⟩
  | none =>
    by_contra hget
    obtain ⟨value, hsome⟩ := Option.ne_none_iff_exists'.1 hget
    obtain ⟨source, hmem, hgiven⟩ := mem_gathered.1 (Record.mem_of_get? hsome)
    -- no other entry has the key
    have hsame : (entry.1, source) = entry := List.inj_on_of_nodup_map h hmem hentry rfl
    have hsource : source = entry.2 := congrArg Prod.snd hsame
    rw [hsource, hvalue] at hgiven
    cases hgiven

/-- If every entry gives something, and none of them a notice, all of that is there. -/
theorem gathered_silent {τ : Type} {list : List τ} (entry : τ → Text × σ) {shown : τ → α}
    (hread : ∀ a ∈ list, read (entry a).1 (entry a).2 = .silent (some (shown a))) :
    gathered read (list.map entry) = .silent (list.map fun a => ((entry a).1, shown a)) := by
  rw [gathered, List.filterMap_map, List.flatMap_map, Reported.silent]
  refine congrArg₂ Reported.mk ?_ ?_
  · rw [← List.filterMap_eq_map]
    apply List.filterMap_congr
    intro a ha
    rw [Function.comp_apply, given, hread a ha]
    rfl
  · apply List.flatMap_eq_nil_iff.2
    intro a ha
    rw [hread a ha]
    rfl

/-! ### Readings that may be broken off -/

/-- What an entry gives, or nothing if it was broken off. -/
def Attempt.orNothing (attempt : Attempt (Option α)) : Reported Notice (Option α) :=
  Reported.map (fun
    | .ok given => given
    | .error _ => none) attempt

/-- A reading that was not broken off. -/
def Attempt.IsWhole (attempt : Attempt α) : Prop := ∃ a, attempt.value = .ok a

instance (attempt : Attempt α) : Decidable attempt.IsWhole :=
  match h : attempt.value with
  | .ok a => .isTrue ⟨a, h⟩
  | .error _ => .isFalse fun ⟨_, ha⟩ => nomatch h.symm.trans ha

variable {attempt : Text → Text → Attempt (Option Value)}

theorem Attempt.IsWhole.orNothing {attempt : Attempt (Option α)} (h : attempt.IsWhole) :
    attempt.value = .ok attempt.orNothing.value := by
  obtain ⟨given, hgiven⟩ := h
  rw [Attempt.orNothing, Reported.map, hgiven]

theorem gather_cons_of_ok {key source : Text} {field : Option Value}
    (h : (attempt key source).value = .ok field) (rest : List (Text × Text)) :
    gather attempt ((key, source) :: rest) =
      ⟨⟨(field.map fun value => (key, value)).toList ++ (gather attempt rest).value.list,
          (gather attempt rest).value.fault⟩,
        (attempt key source).notices ++ (gather attempt rest).notices⟩ := by
  rw [gather, Reported.andThen, h]
  rfl

theorem gather_cons_of_error {key source : Text} {fault : Literal.Fault}
    (h : (attempt key source).value = .error fault) (rest : List (Text × Text)) :
    gather attempt ((key, source) :: rest) =
      ⟨.stopped fault, (attempt key source).notices⟩ := by
  rw [gather, Reported.andThen, h]
  simp only [Reported.silent, List.append_nil]

/-- Entries that are read whole are gathered each by itself, whatever comes of those behind them. -/
theorem gather_append {before : List (Text × Text)}
    (h : ∀ entry ∈ before, (attempt entry.1 entry.2).IsWhole) (after : List (Text × Text)) :
    gather attempt (before ++ after) =
      (gathered (fun key source => (attempt key source).orNothing) before).andThen fun fields =>
        (gather attempt after).map fun others => ⟨fields ++ others.list, others.fault⟩ := by
  induction before with
  | nil => rfl
  | cons entry before ih =>
    obtain ⟨hentry, hbefore⟩ := List.forall_mem_cons.1 h
    rw [List.cons_append, gather_cons_of_ok hentry.orNothing, ih hbefore]
    simp only [Reported.andThen, gathered, List.filterMap_cons, List.flatMap_cons, given,
      Reported.map]
    cases (attempt entry.1 entry.2).orNothing.value <;> simp [Attempt.orNothing, Reported.map]

/-- What is gathered was given by an entry that was read whole. -/
theorem mem_gather {list : List (Text × Text)} {name : Text} {v : Value}
    (h : (name, v) ∈ (gather attempt list).value.list) :
    ∃ source, (name, source) ∈ list ∧ (attempt name source).value = .ok (some v) := by
  induction list with
  | nil => cases h
  | cons entry list ih =>
    obtain ⟨key, source⟩ := entry
    cases hvalue : (attempt key source).value with
    | error fault =>
      rw [gather_cons_of_error hvalue] at h
      cases h
    | ok field =>
      rw [gather_cons_of_ok hvalue] at h
      rcases List.mem_append.1 h with hfirst | hothers
      · obtain ⟨value, rfl, hpair⟩ := Option.map_eq_some_iff.1 (Option.mem_toList.1 hfirst)
        obtain ⟨rfl, rfl⟩ := Prod.mk.inj hpair
        exact ⟨source, List.mem_cons_self, hvalue⟩
      · obtain ⟨other, hmem, hother⟩ := ih hothers
        exact ⟨other, List.mem_cons_of_mem _ hmem, hother⟩

/-- What breaks the gathering off broke off an entry. -/
theorem exists_entry_of_gather {list : List (Text × Text)} {fault : Literal.Fault}
    (h : (gather attempt list).value.fault = some fault) :
    ∃ entry ∈ list, (attempt entry.1 entry.2).value = .error fault := by
  induction list with
  | nil => cases h
  | cons entry list ih =>
    cases hvalue : (attempt entry.1 entry.2).value with
    | error other =>
      rw [gather_cons_of_error hvalue] at h
      obtain rfl := Option.some.inj h
      exact ⟨entry, List.mem_cons_self, hvalue⟩
    | ok field =>
      rw [gather_cons_of_ok hvalue] at h
      obtain ⟨later, hmem, hlater⟩ := ih h
      exact ⟨later, List.mem_cons_of_mem _ hmem, hlater⟩

/-! ### Entries -/

theorem eq_ofList_of_settled {found : Literal.Entries (Text × Value)} {fields : Record Value}
    (h : settled found = .ok fields) : fields = Record.ofList found.list := by
  rw [settled] at h
  split at h
  · exact (Except.ok.inj h).symm
  · cases h

theorem fault_of_settled {found : Literal.Entries (Text × Value)} {fault : Literal.Fault}
    (h : settled found = .error fault) : found.fault = some fault := by
  rw [settled] at h
  split at h
  · cases h
  · next other hother => rw [hother, Except.error.inj h]

section Entries

variable {raw : Text} {list : List (Text × Text)}

theorem entries_of_properties (hraw : Literal.properties raw = ⟨list, none⟩) (label : Text)
    (attempt : Text → Text → Attempt (Option Value)) :
    entries label raw attempt = (gather attempt list).map settled := by
  rw [entries, properties, hraw]
  rfl

/-- Entries that are all found and read whole are read one after another. -/
theorem entries_eq (hraw : Literal.properties raw = ⟨list, none⟩)
    (hkeys : (list.map Prod.fst).Nodup)
    (hwhole : ∀ entry ∈ list, (attempt entry.1 entry.2).IsWhole) (label : Text) :
    entries label raw attempt =
      .whole (gathered (fun key source => (attempt key source).orNothing) list) := by
  have hgather := gather_append hwhole []
  rw [List.append_nil] at hgather
  rw [entries_of_properties hraw, hgather]
  simp only [Reported.andThen, gather, Reported.map, Reported.silent, settled, List.append_nil,
    Record.ofList_of_nodup (nodup_gathered hkeys)]
  rfl

/-- The first entry that is broken off breaks off all of them. -/
theorem entries_brokenOff {before after : List (Text × Text)} {key source : Text}
    {fault : Literal.Fault}
    (hraw : Literal.properties raw = ⟨before ++ (key, source) :: after, none⟩)
    (hwhole : ∀ entry ∈ before, (attempt entry.1 entry.2).IsWhole)
    (hfault : (attempt key source).value = .error fault) (label : Text) :
    entries label raw attempt =
      ⟨.error fault, before.flatMap (fun entry => (attempt entry.1 entry.2).notices) ++
        (attempt key source).notices⟩ := by
  rw [entries_of_properties hraw, gather_append hwhole, gather_cons_of_error hfault]
  rfl

/-- The fields of a printed object, each read without a notice. -/
theorem entries_json {fields : List (Text × Value)} (h : (Value.object fields).IsData)
    (label : Text) (depth : Nat) (attempt : Text → Text → Attempt (Option Value))
    (shown : Text × Value → Value)
    (hread : ∀ f ∈ fields,
      attempt (Text.utf16 f.1) (f.2.json (depth + 1)) = .silent (.ok (some (shown f)))) :
    entries label ((Value.object fields).json depth) attempt =
      .silent (.ok (fields.map fun f => (Text.utf16 f.1, shown f))) := by
  rw [entries_eq (Literal.properties_json h depth)]
  · rw [gathered_silent (fun f : Text × Value => (Text.utf16 f.1, f.2.json (depth + 1)))]
    · rfl
    · intro f hf
      rw [hread f hf]
      rfl
  · cases h with
    | object hnames hscalar _ =>
      rw [List.map_map]
      exact Literal.nodup_utf16 hnames hscalar
  · rw [List.forall_mem_map]
    intro f hf
    exact ⟨_, congrArg Reported.value (hread f hf)⟩

end Entries

end TailwindUpgrade.Config
