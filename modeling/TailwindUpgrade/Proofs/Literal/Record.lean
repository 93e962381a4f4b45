/-
TailwindUpgrade/Proofs/Literal/Record.lean

What is found in a record.  If the names of a list of fields are distinct, writing the fields one
after another gives the list itself, and every field is found under its name.  Whether they are or
not, what is found under a name was written under it (`mem_of_get?_ofList`).
-/
import Mathlib.Data.List.Induction
import Mathlib.Data.List.Nodup
import TailwindUpgrade.Literal.Record

namespace TailwindUpgrade.Record

variable {α : Type}

theorem get?_cons_self (name : Text) (value : α) (rest : Record α) :
    get? name ((name, value) :: rest) = some value := by
  rw [get?, List.lookup_cons_self]

theorem get?_cons_of_ne {name other : Text} (h : name ≠ other) (value : α) (rest : Record α) :
    get? name ((other, value) :: rest) = get? name rest := by
  have hbeq : (name == other) = false := by simpa using h
  rw [get?, List.lookup_cons, hbeq]
  rfl

/-- Under a name that is not there, nothing is found. -/
theorem get?_eq_none {name : Text} {r : Record α} (h : name ∉ names r) : get? name r = none := by
  induction r with
  | nil => rfl
  | cons field rest ih =>
    rw [names, List.map_cons, List.mem_cons, not_or] at h
    rw [get?_cons_of_ne h.1, ih h.2]

theorem set_of_not_mem {name : Text} {r : Record α} (h : name ∉ names r) (value : α) :
    set name value r = r ++ [(name, value)] := by
  induction r with
  | nil => rfl
  | cons field rest ih =>
    obtain ⟨other, v⟩ := field
    rw [names, List.map_cons, List.mem_cons, not_or] at h
    rw [set, if_neg (Ne.symm h.1), ih h.2, List.cons_append]

theorem setAll_of_nodup {r : Record α} {fields : List (Text × α)}
    (h : (names r ++ fields.map Prod.fst).Nodup) : setAll r fields = r ++ fields := by
  induction fields generalizing r with
  | nil => exact (List.append_nil r).symm
  | cons field rest ih =>
    obtain ⟨name, value⟩ := field
    have hname : name ∉ names r := by
      intro hmem
      exact (List.nodup_append.1 h).2.2 name hmem name (by simp) rfl
    have hnames : names (r ++ [(name, value)]) = names r ++ [name] := by simp [names]
    rw [setAll, List.foldl_cons, set_of_not_mem hname]
    refine (ih ?_).trans (by simp)
    rw [hnames, List.append_assoc]
    exact h

/-- Fields of distinct names are a record. -/
theorem ofList_of_nodup {fields : List (Text × α)} (h : (fields.map Prod.fst).Nodup) :
    ofList fields = fields := setAll_of_nodup (r := []) h

theorem get?_of_mem {r : Record α} (h : (names r).Nodup) {name : Text} {value : α}
    (hmem : (name, value) ∈ r) : get? name r = some value := by
  induction r with
  | nil => cases hmem
  | cons field rest ih =>
    obtain ⟨other, v⟩ := field
    rw [names, List.map_cons, List.nodup_cons] at h
    rcases List.mem_cons.1 hmem with hfirst | hrest
    · obtain ⟨rfl, rfl⟩ := Prod.mk.inj hfirst
      exact get?_cons_self name value rest
    · have hne : name ≠ other := by
        rintro rfl
        exact h.1 (List.mem_map.2 ⟨_, hrest, rfl⟩)
      rw [get?_cons_of_ne hne]
      exact ih h.2 hrest

theorem mem_of_get? {r : Record α} {name : Text} {value : α} (h : get? name r = some value) :
    (name, value) ∈ r := by
  induction r with
  | nil => cases h
  | cons field rest ih =>
    obtain ⟨other, v⟩ := field
    rw [get?, List.lookup_cons] at h
    split at h
    · next heq =>
      obtain rfl : name = other := by simpa using heq
      obtain rfl := Option.some.inj h
      exact List.mem_cons_self
    · exact List.mem_cons_of_mem _ (ih h)

/-- Writing what is there already changes nothing. -/
theorem set_eq_self {r : Record α} {name : Text} {value : α} (h : get? name r = some value) :
    set name value r = r := by
  induction r with
  | nil => cases h
  | cons field rest ih =>
    obtain ⟨other, v⟩ := field
    by_cases hname : other = name
    · subst hname
      obtain rfl : v = value := by simpa [get?] using h
      rw [set, if_pos rfl]
    · rw [get?_cons_of_ne (Ne.symm hname)] at h
      rw [set, if_neg hname, ih h]

/-- A field of what results from setting one is the one that was set, or was there before. -/
theorem mem_of_mem_set {r : Record α} {name : Text} {value : α} {field : Text × α}
    (h : field ∈ set name value r) : field = (name, value) ∨ field ∈ r := by
  induction r with
  | nil => exact .inl (List.mem_singleton.1 h)
  | cons first rest ih =>
    obtain ⟨other, v⟩ := first
    rw [set] at h
    split at h
    · rcases List.mem_cons.1 h with hself | hrest
      · exact .inl hself
      · exact .inr (List.mem_cons_of_mem _ hrest)
    · rcases List.mem_cons.1 h with hfirst | hrest
      · exact .inr (hfirst ▸ List.mem_cons_self)
      · exact (ih hrest).imp_right (List.mem_cons_of_mem _)

/-- What is found under a name was there before, or was written under it. -/
theorem get?_setAll {fields : List (Text × α)} {r : Record α} {name : Text} {value : α}
    (h : get? name (setAll r fields) = some value) :
    get? name r = some value ∨ (name, value) ∈ fields := by
  induction fields generalizing r with
  | nil => exact .inl h
  | cons field rest ih =>
    obtain ⟨other, v⟩ := field
    rcases ih h with hset | hrest
    · by_cases hname : name = other
      · subst hname
        rw [get?_set_self] at hset
        obtain rfl := Option.some.inj hset
        exact .inr List.mem_cons_self
      · rw [get?_set_of_ne hname] at hset
        exact .inl hset
    · exact .inr (List.mem_cons_of_mem _ hrest)

theorem mem_of_get?_ofList {fields : List (Text × α)} {name : Text} {value : α}
    (h : get? name (ofList fields) = some value) : (name, value) ∈ fields := by
  rcases get?_setAll h with hnil | hmem
  · cases hnil
  · exact hmem

/-- A field to which nothing is written stays. -/
theorem get?_setAll_of_not_mem {fields : List (Text × α)} {name : Text}
    (h : name ∉ fields.map Prod.fst) (r : Record α) :
    get? name (setAll r fields) = get? name r := by
  induction fields generalizing r with
  | nil => rfl
  | cons field rest ih =>
    rw [List.map_cons, List.mem_cons, not_or] at h
    exact (ih h.2 _).trans (get?_set_of_ne h.1 field.2 r)

/-- The last value that is written under a name counts. -/
theorem get?_ofList_last {before after : List (Text × α)} {name : Text} (value : α)
    (h : name ∉ after.map Prod.fst) :
    get? name (ofList (before ++ (name, value) :: after)) = some value := by
  have hset : ofList (before ++ (name, value) :: after) =
      setAll (set name value (ofList before)) after := by
    rw [ofList, setAll, List.foldl_append, List.foldl_cons]
    rfl
  rw [hset, get?_setAll_of_not_mem h, get?_set_self]

/-- Under a name stands what was written there last. -/
theorem get?_ofList (fields : List (Text × α)) (name : Text) :
    get? name (ofList fields) = (fields.filter (·.1 = name)).getLast?.map (·.2) := by
  induction fields using List.reverseRecOn with
  | nil => rfl
  | append_singleton fields field ih =>
    have hset : ofList (fields ++ [field]) = set field.1 field.2 (ofList fields) := by
      rw [ofList, setAll, List.foldl_append]
      rfl
    rw [hset, List.filter_append, List.filter_singleton]
    by_cases hname : field.1 = name
    · rw [decide_eq_true hname, cond_true, List.getLast?_concat, ← hname, get?_set_self]
      rfl
    · rw [decide_eq_false hname, cond_false, List.append_nil, get?_set_of_ne (Ne.symm hname), ih]

/-- The names stand in the order in which they were first written. -/
theorem names_ofList (fields : List (Text × α)) :
    names (ofList fields) = (fields.map Prod.fst).eraseDups := by
  induction fields using List.reverseRecOn with
  | nil => rfl
  | append_singleton fields field ih =>
    have hset : ofList (fields ++ [field]) = set field.1 field.2 (ofList fields) := by
      rw [ofList, setAll, List.foldl_append]
      rfl
    have hmem : field.1 ∈ (fields.map Prod.fst).eraseDups ↔ field.1 ∈ fields.map Prod.fst :=
      List.mem_eraseDups
    rw [hset, names_set, ih, List.map_append, List.eraseDups_append]
    by_cases h : field.1 ∈ fields.map Prod.fst
    · rw [if_pos (hmem.2 h)]
      simp [List.removeAll, h]
    · rw [if_neg fun hd => h (hmem.1 hd)]
      simp [List.removeAll, h, List.eraseDups_cons]

/-- Where anything is written, there is a field. -/
theorem ofList_eq_nil_iff {fields : List (Text × α)} : ofList fields = [] ↔ fields = [] := by
  constructor
  · intro h
    cases fields with
    | nil => rfl
    | cons field rest =>
      have hnames := names_ofList (field :: rest)
      rw [h, List.map_cons, List.eraseDups_cons] at hnames
      cases hnames
  · rintro rfl
    rfl

/-- A field that was taken out is not there. -/
theorem get?_erase_self (name : Text) (r : Record α) : get? name (erase name r) = none := by
  rw [Option.eq_none_iff_forall_ne_some]
  intro value h
  have hkept := (List.mem_filter.1 (mem_of_get? h)).2
  exact absurd rfl (of_decide_eq_true hkept)

/-- The other fields stay as they were. -/
theorem get?_erase_of_ne {name other : Text} (h : other ≠ name) (r : Record α) :
    get? other (erase name r) = get? other r := by
  induction r with
  | nil => rfl
  | cons field rest ih =>
    obtain ⟨n, v⟩ := field
    rw [erase] at ih ⊢
    rw [List.filter_cons]
    by_cases hn : n = name
    · subst hn
      rw [if_neg (by simp), ih, get?_cons_of_ne h]
    · rw [if_pos (by simpa using hn)]
      by_cases hother : other = n
      · subst hother
        rw [get?_cons_self, get?_cons_self]
      · rw [get?_cons_of_ne hother, get?_cons_of_ne hother, ih]

end TailwindUpgrade.Record
