/-
TailwindUpgrade/Proofs/Config/Isolation.lean

Fields that do not see one another.  In a source that exports one entry on each line, with an
identifier for its key and any self-contained text for its value, all entries are found as they
stand there, and the configuration is what they give, each by itself (`read_whole`).

Main result: the value of one entry may be replaced by any other one that leaves the bindings of the
source alone, and nothing changes but what this entry itself gives; but there is one kind of value
that takes all others with it, a numeral of too many digits (`fields_isolated`).
-/
import TailwindUpgrade.Proofs.Config.Anchor
import TailwindUpgrade.Proofs.Config.BrokenOff
import TailwindUpgrade.Proofs.Literal.Extent

namespace TailwindUpgrade.Config

open Literal (SelfContained Gap ReadAs)

/-- A text that is an identifier, from its first to its last character. -/
def IsIdentifier (key : Text) : Prop := Text.identifier? key = some (key, [])

instance (key : Text) : Decidable (IsIdentifier key) :=
  inferInstanceAs (Decidable (Text.identifier? key = some (key, [])))

/-- Entries with distinct identifiers for keys, each value a text of its own. -/
structure Separate (entries : List (Text × Text)) : Prop where
  distinct : (entries.map Prod.fst).Nodup
  keys : ∀ entry ∈ entries, IsIdentifier entry.1
  values : ∀ entry ∈ entries, SelfContained entry.2

/-- An entry as it stands in a source, up to the comma after it. -/
def line (entry : Text × Text) : Text := entry.1 ++ ": " ++ entry.2 ++ "\n"

/-- What stands between the braces of an exported configuration. -/
def lines (entries : List (Text × Text)) : Text := entries.flatMap fun entry => line entry ++ ","

/-- The source of a module that exports the entries as a configuration. -/
def exported (entries : List (Text × Text)) : Text :=
  "export default \x7b" ++ lines entries ++ "\x7d satisfies Config"

/-- The notices about fields, in the order of the fields, given the names that the source binds. -/
def noticesOf (bound : Record Text) (entries : List (Text × Text)) : List Notice :=
  entries.flatMap fun entry => (field bound entry.1 entry.2).notices

/-! ### Finding the entries -/

theorem IsIdentifier.exists_cons {key : Text} (h : IsIdentifier key) :
    ∃ c r, key = c :: r ∧ Text.isIdentifierStart c = true ∧
      ∀ d ∈ r, Text.isIdentifierPart d = true := by
  cases key with
  | nil => cases h
  | cons c r =>
    rw [IsIdentifier, Text.identifier?] at h
    split at h
    · next hc =>
      obtain ⟨-, hrest⟩ := Prod.mk.inj (Option.some.inj h)
      exact ⟨c, r, rfl, hc, fun d hd => by simpa using List.dropWhile_eq_nil_iff.1 hrest d hd⟩
    · cases h

/-- An identifier before a text that does not go on with it. -/
theorem IsIdentifier.identifier?_append {key s : Text} (h : IsIdentifier key)
    (hs : ∀ c ∈ s.head?, Text.isIdentifierPart c = false) :
    Text.identifier? (key ++ s) = some (key, s) := by
  obtain ⟨c, r, rfl, hc, hr⟩ := h.exists_cons
  rw [List.cons_append, Text.identifier?, if_pos hc, Text.takeWhile_append_stop hr hs,
    Text.dropWhile_append_stop hr hs]

theorem IsIdentifier.bareKey {key : Text} (h : IsIdentifier key) : Literal.BareKey key := by
  obtain ⟨c, r, rfl, hc, hr⟩ := h.exists_cons
  exact .name hc hr

theorem line_eq (entry : Text × Text) :
    line entry = entry.1 ++ .char ':' :: (.char ' ' :: (entry.2 ++ [.char '\n'])) := by
  simp [line, Text.ofString]

/-- A line is read as its entry. -/
theorem readAs_line {entry : Text × Text} (hkey : IsIdentifier entry.1)
    (hvalue : SelfContained entry.2) : ReadAs '\x7d' Literal.rawField entry (line entry) := by
  have hspace : Gap [.char ' '] := .blank rfl .nil
  rw [line_eq]
  exact (Literal.CutField.keyed (.bare hkey.bareKey) .nil hspace hvalue
    hvalue.trailing_lineFeed).readAs

/-- The entries of an object before a text are cut off, and the text is read as if it were all that
stands behind the brace. -/
theorem properties_append {entries : List (Text × Text)}
    (hkeys : ∀ entry ∈ entries, IsIdentifier entry.1)
    (hvalues : ∀ entry ∈ entries, SelfContained entry.2) (s : Text) :
    Literal.properties (.char '\x7b' :: (lines entries ++ s)) =
      ⟨entries ++ (Literal.properties (.char '\x7b' :: s)).list,
        (Literal.properties (.char '\x7b' :: s)).fault.map (·.further (lines entries).length)⟩ :=
  Literal.rawContainer_run Literal.isCloser_brace Literal.solid_brace
    (fun entry hentry => readAs_line (hkeys entry hentry) (hvalues entry hentry)) s

/-- The lenient reading finds the entries that were written. -/
theorem properties_lines {entries : List (Text × Text)}
    (hkeys : ∀ entry ∈ entries, IsIdentifier entry.1)
    (hvalues : ∀ entry ∈ entries, SelfContained entry.2) :
    Literal.properties (.char '\x7b' :: (lines entries ++ [.char '\x7d'])) = ⟨entries, none⟩ := by
  have hempty : Literal.properties [.char '\x7b', .char '\x7d'] = ⟨[], none⟩ := by decide +kernel
  rw [properties_append hkeys hvalues, hempty, List.append_nil]
  rfl

/-- The object of an exported configuration is what stands in its braces. -/
theorem read_exported (entries : List (Text × Text)) :
    read (exported entries) =
      .ok (fields (bindings (exported entries))
        (.char '\x7b' :: (lines entries ++ [.char '\x7d']))) := by
  have hobject : objectSource? (exported entries) =
      some (.char '\x7b' :: (lines entries ++ [.char '\x7d'])) := by
    have hfound := objectSource?_exported " satisfies Config" (by decide +kernel)
      (by decide +kernel) (lines entries)
    have htext : exported entries = ("export default " : Text) ++
        .char '\x7b' :: (lines entries ++ .char '\x7d' :: (" satisfies Config" : Text)) := by
      show (("export default " : Text) ++ [.char '\x7b']) ++ lines entries ++
        .char '\x7d' :: (" satisfies Config" : Text) = _
      rw [List.append_assoc, List.append_assoc, List.singleton_append]
    rw [htext, hfound]
  rw [read, hobject]

/-- What an entry gives by itself, under the names that the source binds. -/
def alone (bound : Record Text) (entry : Text × Text) : Attempt (Option Value) :=
  field bound entry.1 entry.2

/-- What all entries give, those that are broken off giving nothing. -/
def together (bound : Record Text) (entries : List (Text × Text)) :
    Reported Notice (Record Value) :=
  gathered (fun key source => (field bound key source).orNothing) entries

theorem get?_together {bound : Record Text} {entries : List (Text × Text)}
    (h : (entries.map Prod.fst).Nodup) {entry : Text × Text} (hentry : entry ∈ entries) :
    Record.get? entry.1 (together bound entries).value = (alone bound entry).orNothing.value :=
  get?_gathered h hentry

/-- A configuration is what its entries give, each by itself, if they are all read whole. -/
theorem read_whole {entries : List (Text × Text)} (h : Separate entries)
    (hwhole : ∀ entry ∈ entries, (alone (bindings (exported entries)) entry).IsWhole) :
    read (exported entries) = .ok (.whole (together (bindings (exported entries)) entries)) := by
  rw [read_exported]
  exact congrArg Except.ok (entries_eq (properties_lines h.keys h.values) h.distinct hwhole _)

/-- A configuration is broken off where the first of its entries is. -/
theorem read_brokenOff {before after : List (Text × Text)} {entry : Text × Text}
    {fault : Literal.Fault} (h : Separate (before ++ entry :: after)) {bound : Record Text}
    (hbound : bindings (exported (before ++ entry :: after)) = bound)
    (hwhole : ∀ other ∈ before, (alone bound other).IsWhole)
    (hfault : (alone bound entry).value = .error fault) :
    read (exported (before ++ entry :: after)) =
      .ok ⟨.error fault, noticesOf bound before ++ (alone bound entry).notices⟩ := by
  rw [read_exported, hbound]
  exact congrArg Except.ok
    (entries_brokenOff (properties_lines h.keys h.values) hwhole hfault _)

/-! ### Replacing a value -/

/-- What a plugin is described by depends on the modules that names are bound to, and on nothing
else of the bindings. -/
theorem field_congr {bound bound' : Record Text}
    (h : ∀ name, Record.get? name bound' = Record.get? name bound) : field bound' = field bound := by
  have hmodule : moduleOf? bound' = moduleOf? bound := by
    funext expression
    rw [moduleOf?, moduleOf?]
    simp only [h]
  have hdescribe : describe bound' = describe bound := by
    funext expression
    rw [describe, describe, hmodule]
  funext key source
  rw [field, field, plugins, plugins, hdescribe]

theorem noticesOf_split (bound : Record Text) (before : List (Text × Text)) (entry : Text × Text)
    (after : List (Text × Text)) :
    noticesOf bound (before ++ entry :: after) =
      noticesOf bound before ++ (alone bound entry).notices ++ noticesOf bound after := by
  rw [noticesOf, List.flatMap_append, List.flatMap_cons, List.append_assoc]
  rfl

theorem Separate.replace {before after : List (Text × Text)} {key value other : Text}
    (h : Separate (before ++ (key, value) :: after)) (hother : SelfContained other) :
    Separate (before ++ (key, other) :: after) := by
  have hkeys := h.keys
  have hvalues := h.values
  rw [List.forall_mem_append, List.forall_mem_cons] at hkeys hvalues
  refine ⟨by simpa using h.distinct, ?_, ?_⟩
  · rw [List.forall_mem_append, List.forall_mem_cons]
    exact hkeys
  · rw [List.forall_mem_append, List.forall_mem_cons]
    exact ⟨hvalues.1, hother, hvalues.2.2⟩

section Erase

variable {ν α σ : Type} (read : Text → σ → Reported ν (Option α)) {key : Text}

theorem erase_gathered_of_not_mem {list : List (Text × σ)} (h : key ∉ list.map Prod.fst) :
    Record.erase key (gathered read list).value = (gathered read list).value := by
  apply List.filter_eq_self.2
  intro field hfield
  obtain ⟨name, value⟩ := field
  obtain ⟨source, hentry, -⟩ := mem_gathered.1 hfield
  have hne : name ≠ key := by
    rintro rfl
    exact h (List.mem_map_of_mem hentry)
  simpa using hne

/-- Without the field of one entry, there are those that the others give. -/
theorem erase_gathered {before after : List (Text × σ)} {value : σ}
    (h : ((before ++ (key, value) :: after).map Prod.fst).Nodup) :
    Record.erase key (gathered read (before ++ (key, value) :: after)).value =
      (gathered read before).value ++ (gathered read after).value := by
  rw [List.map_append, List.map_cons, List.nodup_middle, List.nodup_cons, List.mem_append,
    not_or] at h
  have hbefore := erase_gathered_of_not_mem read h.1.1
  have hafter := erase_gathered_of_not_mem read h.1.2
  have hsingle : Record.erase key (gathered read [(key, value)]).value = [] := by
    apply List.filter_eq_nil_iff.2
    intro field hfield
    obtain ⟨name, v⟩ := field
    obtain ⟨source, hentry, -⟩ := mem_gathered.1 hfield
    obtain ⟨rfl, -⟩ := Prod.mk.inj (List.mem_singleton.1 hentry)
    simp
  have hsplit : (gathered read (before ++ (key, value) :: after)).value =
      (gathered read before).value ++
        ((gathered read [(key, value)]).value ++ (gathered read after).value) := by
    rw [← List.singleton_append]
    exact List.filterMap_append.trans (congrArg _ List.filterMap_append)
  rw [Record.erase] at hbefore hafter hsingle ⊢
  rw [hsplit, List.filter_append, List.filter_append, hbefore, hafter, hsingle, List.nil_append]

end Erase

/-- What replacing the value of the entry under `key` leaves of a configuration: every other name
has the value that it had, and the other names stand in the order in which they stood. -/
structure Unchanged (key : Text) (config changed : Record Value) : Prop where
  values : ∀ name, name ≠ key → Record.get? name changed = Record.get? name config
  order : Record.names (Record.erase key changed) = Record.names (Record.erase key config)

theorem unchanged_together {before after : List (Text × Text)} {key value other : Text}
    {bound : Record Text} (h : ((before ++ (key, value) :: after).map Prod.fst).Nodup)
    (hreplaced : ((before ++ (key, other) :: after).map Prod.fst).Nodup) :
    Unchanged key (together bound (before ++ (key, value) :: after)).value
      (together bound (before ++ (key, other) :: after)).value := by
  -- without the field itself, both records are what the other entries give
  have herase : Record.erase key (together bound (before ++ (key, other) :: after)).value =
      Record.erase key (together bound (before ++ (key, value) :: after)).value := by
    rw [together, together, erase_gathered _ hreplaced, erase_gathered _ h]
  refine ⟨fun name hname => ?_, congrArg _ herase⟩
  rw [← Record.get?_erase_of_ne hname, herase, Record.get?_erase_of_ne hname]

/-- **Fields are isolated from one another, but for long numerals.**  If every entry is read whole,
there stands under each key what its entry gives, and the notices are those of the entries one after
another.  If then the value of one entry is replaced by another one that is read whole, and the
bindings of the source stay, nothing but the field of this entry changes, and the other entries give
the notices that they gave, before and after those of the entry itself.

An entry that is not read whole has a numeral of too many digits in it.  The first such entry breaks
the reading of all of them off, with the notices of those before it. -/
theorem fields_isolated {entries : List (Text × Text)} (h : Separate entries) {bound : Record Text}
    (hbound : bindings (exported entries) = bound) :
    ∃ found, read (exported entries) = .ok found ∧
      ((∀ entry ∈ entries, (alone bound entry).IsWhole) →
        ∃ config, found.value = .ok config ∧
          (∀ entry ∈ entries, (alone bound entry).value = .ok (Record.get? entry.1 config)) ∧
          found.notices = noticesOf bound entries ∧
          ∀ before key value after other, entries = before ++ (key, value) :: after →
            SelfContained other → (alone bound (key, other)).IsWhole →
            (∀ name, Record.get? name (bindings (exported (before ++ (key, other) :: after))) =
              Record.get? name bound) →
            ∃ changed config', read (exported (before ++ (key, other) :: after)) = .ok changed ∧
              changed.value = .ok config' ∧ Unchanged key config config' ∧
              found.notices = noticesOf bound before ++ (alone bound (key, value)).notices ++
                noticesOf bound after ∧
              changed.notices = noticesOf bound before ++ (alone bound (key, other)).notices ++
                noticesOf bound after) ∧
      ∀ before entry after fault, entries = before ++ entry :: after →
        (∀ other ∈ before, (alone bound other).IsWhole) →
        (alone bound entry).value = .error fault →
        fault.IsLong ∧ found.value = .error fault ∧
          found.notices = noticesOf bound before ++ (alone bound entry).notices := by
  subst hbound
  obtain ⟨found, hfound⟩ : ∃ found, read (exported entries) = .ok found :=
    ⟨_, read_exported entries⟩
  refine ⟨found, hfound, fun hwhole => ?_, ?_⟩
  · obtain rfl := Except.ok.inj (hfound.symm.trans (read_whole h hwhole))
    refine ⟨_, rfl, fun entry hentry => ?_, rfl, ?_⟩
    · rw [(hwhole entry hentry).orNothing, get?_together h.distinct hentry]
    rintro before key value after other rfl hother hwholeOther hbound
    have hreplaced := h.replace hother
    -- under the same modules the entries give what they gave
    have hsame := field_congr hbound
    have hwholeReplaced : ∀ entry ∈ before ++ (key, other) :: after,
        (alone (bindings (exported (before ++ (key, other) :: after))) entry).IsWhole := by
      rw [List.forall_mem_append, List.forall_mem_cons] at hwhole ⊢
      simp only [alone, hsame]
      exact ⟨hwhole.1, hwholeOther, hwhole.2.2⟩
    have hread := read_whole hreplaced hwholeReplaced
    rw [together, hsame] at hread
    exact ⟨_, _, hread, rfl, unchanged_together h.distinct hreplaced.distinct,
      noticesOf_split _ before (key, value) after, noticesOf_split _ before (key, other) after⟩
  · rintro before entry after fault rfl hwhole hfault
    obtain rfl := Except.ok.inj (hfound.symm.trans (read_brokenOff h rfl hwhole hfault))
    exact ⟨sturdy_field _ _ _ fault hfault, rfl, rfl⟩

/-- Settings that cannot be read are replaced by others that cannot be read. -/
theorem fields_isolated_daisy :
    ∃ found config changed config',
      read (exported [("theme", "5 // \x7d"), ("daisyui", "\x7b themes: 7 7 \x7d"),
        ("content", "['\x7d satisfies Config']")]) = .ok found ∧
      found.value = .ok config ∧
      read (exported [("theme", "5 // \x7d"), ("daisyui", "f(/* , */) \x7b\x7d"),
        ("content", "['\x7d satisfies Config']")]) = .ok changed ∧
      changed.value = .ok config' ∧
      Record.get? "content" config' = Record.get? "content" config ∧
      Record.names (Record.erase "daisyui" config') =
        Record.names (Record.erase "daisyui" config) := by
  have hseparate : Separate [("theme", "5 // \x7d"), ("daisyui", "\x7b themes: 7 7 \x7d"),
      ("content", "['\x7d satisfies Config']")] :=
    ⟨by decide, by decide +kernel, by decide +kernel⟩
  obtain ⟨found, hfound, hwhole, -⟩ := fields_isolated hseparate rfl
  obtain ⟨config, hconfig, -, -, hreplace⟩ := hwhole (by decide +kernel)
  obtain ⟨changed, config', hchanged, hconfig', hunchanged, -⟩ := hreplace [("theme", "5 // \x7d")]
    "daisyui" "\x7b themes: 7 7 \x7d" [("content", "['\x7d satisfies Config']")]
    "f(/* , */) \x7b\x7d" rfl (by decide +kernel) (by decide +kernel)
    fun name => congrArg (Record.get? name) (by decide +kernel)
  exact ⟨found, config, changed, config', hfound, hconfig, hchanged, hconfig',
    hunchanged.values "content" (by decide), hunchanged.order⟩

/-! ### A field that takes the others with it -/

/-- A field that nothing more is known of is a value, or the source of one. -/
theorem alone_of_unknown {key : Text} (h : key ∉ [("theme" : Text), "plugins", "daisyui"])
    (bound : Record Text) (source : Text) :
    alone bound (key, source) = .silent ((valueOrSource source).map some) := by
  simp only [List.mem_cons, List.not_mem_nil, or_false, not_or] at h
  rw [alone, field, if_neg h.1, if_neg h.2.1, if_neg h.2.2]

/-- Two numbers with another value between them. -/
def between (value : Text) : List (Text × Text) := [("a", "1"), ("k", value), ("b", "2")]

theorem separate_between {value : Text} (h : SelfContained value) : Separate (between value) := by
  have hone : SelfContained "1" := by decide +kernel
  have htwo : SelfContained "2" := by decide +kernel
  refine ⟨?_, ?_, ?_⟩
  · show [("a" : Text), "k", "b"].Nodup
    decide
  · rw [between, List.forall_mem_cons, List.forall_mem_cons, List.forall_mem_singleton]
    show IsIdentifier "a" ∧ IsIdentifier "k" ∧ IsIdentifier "b"
    decide
  · rw [between, List.forall_mem_cons, List.forall_mem_cons, List.forall_mem_singleton]
    exact ⟨hone, h, htwo⟩

open Literal (zeros)

/-- Between two numbers, a zero of too many digits breaks the reading off. -/
theorem read_between_zeros {n : Nat} (hn : Numeral.maxDigits < n) :
    read (exported (between (zeros n))) = .ok ⟨.error ⟨.longNumeral n, n⟩, []⟩ := by
  have hfault : valueOrSource (zeros n) = .error ⟨.longNumeral n, n⟩ := by
    have hread : Value.read (zeros n) = .error ⟨.longNumeral n, n⟩ := Literal.read_zeros hn
    rw [valueOrSource, hread]
    rfl
  have hseparate := separate_between (Literal.selfContained_zeros (Nat.zero_lt_of_lt hn))
  have hone (bound : Record Text) : alone bound ("a", "1") = .silent (.ok (some (.int 1))) := by
    rw [alone_of_unknown (by decide)]
    decide +kernel
  have hzeros (bound : Record Text) :
      alone bound ("k", zeros n) = .silent (.error ⟨.longNumeral n, n⟩) := by
    rw [alone_of_unknown (by decide), hfault]
    rfl
  generalize zeros n = w at hseparate hzeros ⊢
  have hwhole (bound : Record Text) :
      ∀ other ∈ [(("a" : Text), ("1" : Text))], (alone bound other).IsWhole :=
    fun other hother => ⟨some (.int 1), by rw [List.mem_singleton.1 hother, hone]; rfl⟩
  have hread := @read_brokenOff [("a", "1")] [("b", "2")] ("k", w) _ hseparate _ rfl (hwhole _)
    (congrArg Reported.value (hzeros _))
  have hnone (bound : Record Text) :
      noticesOf bound [("a", "1")] ++ (alone bound ("k", w)).notices = [] := by
    rw [hzeros, noticesOf, List.flatMap_singleton]
    exact (List.append_nil _).trans (congrArg Reported.notices (hone bound))
  rw [hnone] at hread
  exact hread

/-- A zero that is written with too many digits takes the field before it and the one behind it with
it. -/
theorem exported_zeros_brokenOff :
    Separate (between (zeros 4301)) ∧
      ∃ found, read (exported (between (zeros 4301))) = .ok found ∧
        ∀ config, found.value ≠ .ok config := by
  have hselfContained : SelfContained (zeros 4301) := Literal.selfContained_zeros (by decide)
  exact ⟨separate_between hselfContained, _, read_between_zeros (by decide), nofun⟩

end TailwindUpgrade.Config
