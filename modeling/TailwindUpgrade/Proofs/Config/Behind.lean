/-
TailwindUpgrade/Proofs/Config/Behind.lean

What stands behind a configuration.  The end of the object is looked for as far behind as it may be,
at the last brace that the type is named after, so that any text may be taken along with the object.
The reading of the object stops at its closing brace all the same (`read_exporting`).

Main result: whatever is written behind a configuration, braces and the name of the type included,
it changes nothing but perhaps the bindings; if it leaves these alone, the configuration and the
notices are what they are without it (`read_unchanged_behind`).  The opening brace has to follow the
words of the export at once: behind a comment it is not found (`not_read_behind_comment`).
-/
import TailwindUpgrade.Proofs.Config.Isolation

namespace TailwindUpgrade.Config

variable {before object after : Text}

/-- The text of an object: it is read without a fault up to its closing brace, and nothing stands
behind that.  Before its opening brace there may be layout of any kind. -/
def IsObject (object : Text) : Prop :=
  ∃ entries, Literal.rawObject object = .ok (entries, object.length)

/-- Nothing but blanks stands before the opening brace. -/
def OpensAtOnce (object : Text) : Prop :=
  (Text.stripStart object).head? = some (.char '\x7b')

/-- A source that exports an object as a configuration, with text before it and behind it. -/
def exporting (before object after : Text) : Text :=
  before ++ "export default " ++ object ++ " satisfies Config" ++ after

/-! ### Where the object is found -/

/-- What is found begins with the object, whatever it goes through. -/
theorem exists_objectSource? {blanks body : Text} (hbefore : ¬ ("export" : Text) <:+: before)
    (hblanks : Text.AllBlank blanks) (hafter : Text.beginsWithWord after = false) :
    ∃ t, objectSource?
        (exporting before (blanks ++ .char '\x7b' :: (body ++ [.char '\x7d'])) after) =
      some (.char '\x7b' :: (body ++ .char '\x7d' :: t)) := by
  have htext : exporting before (blanks ++ .char '\x7b' :: (body ++ [.char '\x7d'])) after =
      before ++ .char 'e' :: (("xport default " : Text) ++ (blanks ++ .char '\x7b' ::
        (body ++ .char '\x7d' :: ((" satisfies Config" : Text) ++ after)))) := by
    show before ++ ("export default " : Text) ++ _ ++ _ ++ _ =
      before ++ (("export default " : Text) ++ _)
    simp only [List.append_assoc, List.cons_append, List.nil_append]
  have htype : namesConfigType ((" satisfies Config" : Text) ++ after) = true := by
    show (!Text.beginsWithWord after) = true
    rw [hafter]
    rfl
  obtain ⟨t, ht⟩ := exists_throughLastEnd htype body
  refine ⟨t, ?_⟩
  rw [objectSource?, htext, firstMatch_behind hbefore, Text.firstMatch, exportStart?_blanks hblanks]
  exact congrArg (Option.map _) ht

/-! ### What is read from it -/

/-- Fields are read from what an object is read as. -/
theorem fields_congr {object' : Text} (h : Literal.properties object' = Literal.properties object)
    (bound : Record Text) : fields bound object' = fields bound object := by
  rw [fields, fields, entries, entries, properties, properties, h]

/-- An object ends with its closing brace, and with it ends its reading, whatever comes then. -/
theorem IsObject.exists_body (hobject : IsObject object) (hopens : OpensAtOnce object) :
    ∃ blanks body, Text.AllBlank blanks ∧
      object = blanks ++ .char '\x7b' :: (body ++ [.char '\x7d']) ∧
      ∀ t, Literal.properties (.char '\x7b' :: (body ++ .char '\x7d' :: t)) =
        Literal.properties object := by
  obtain ⟨blanks, hblanks, hsplit⟩ := Text.exists_stripStart object
  obtain ⟨inside, hinside⟩ := List.head?_eq_some_iff.1 hopens
  rw [hinside] at hsplit
  obtain ⟨entries, hraw⟩ := hobject
  -- the blanks are skipped, and what is behind them is read to its end as well
  have hbehind : Literal.rawObject (.char '\x7b' :: inside) =
      .ok (entries, (CodePoint.char '\x7b' :: inside).length) := by
    have hskip := hraw
    rw [hsplit, Literal.rawObject_gap (Literal.Gap.of_allBlank hblanks)] at hskip
    obtain ⟨k, hk, hlength⟩ := Literal.Reading.further_eq_ok hskip
    obtain rfl : k = (CodePoint.char '\x7b' :: inside).length := by
      rw [List.length_append] at hlength
      omega
    exact hk
  obtain ⟨r, hr⟩ := Literal.concat_of_whole hbehind
  obtain ⟨-, hbrace⟩ | ⟨body, -, rfl⟩ := List.cons_eq_append_iff.1 hr
  · cases hbrace
  refine ⟨blanks, body, hblanks, hsplit, fun t => ?_⟩
  have hread := Literal.properties_append_of_whole hbehind t
  rw [List.cons_append, List.append_assoc] at hread
  rw [Literal.properties_eq_iff.2 ⟨_, hraw⟩]
  exact hread

/-- The configuration is what the object by itself gives, with the bindings of the whole source. -/
theorem read_exporting (hbefore : ¬ ("export" : Text) <:+: before) (hobject : IsObject object)
    (hopens : OpensAtOnce object) (hafter : Text.beginsWithWord after = false) :
    read (exporting before object after) =
      .ok (fields (bindings (exporting before object after)) object) := by
  obtain ⟨blanks, body, hblanks, rfl, hread⟩ := hobject.exists_body hopens
  obtain ⟨t, ht⟩ := exists_objectSource? hbefore hblanks hafter
  rw [read, ht]
  exact congrArg Except.ok (fields_congr (hread t) _)

/-- **Nothing behind a configuration changes it.**  The object is the same whatever is written
behind it, in braces or not and naming the type or not; so if the names that the source binds stay
bound to their modules, the configuration is read as it is without that text, and with the same
notices.  It is read to its end both times, or else broken off both times, which nothing does but a
numeral of too many digits. -/
theorem read_unchanged_behind (hbefore : ¬ ("export" : Text) <:+: before)
    (hobject : IsObject object) (hopens : OpensAtOnce object)
    (hafter : Text.beginsWithWord after = false)
    (hbound : ∀ name, Record.get? name (bindings (exporting before object after)) =
      Record.get? name (bindings (exporting before object []))) :
    ∃ found, read (exporting before object after) = .ok found ∧
      read (exporting before object []) = .ok found ∧
      ∀ fault, found.value = .error fault → fault.IsLong := by
  refine ⟨_, read_exporting hbefore hobject hopens hafter, ?_, sturdy_fields _ _⟩
  rw [read_exporting hbefore hobject hopens rfl, fields, fields, field_congr hbound]

/-- A configuration with the name of the type in a comment of its own, behind which another object
of the type is defined. -/
theorem read_unchanged_behind_braces :
    let before : Text := "import a from 'm'; // expor"
    let object : Text := "\x7b plugins: [a], /* \x7d satisfies Config */ darkMode: \x7b\x7d\x7d"
    let after : Text := ";\nconst other = \x7b theme: \x7b\x7d \x7d satisfies Config // \x7d"
    objectSource? (exporting before object after) ≠ objectSource? (exporting before object []) ∧
    ∃ found, read (exporting before object after) = .ok found ∧
      read (exporting before object []) = .ok found ∧
      ∀ fault, found.value = .error fault → fault.IsLong := by
  intro before object after
  have hobject : IsObject object :=
    ⟨[("plugins", "[a]"), ("darkMode", "\x7b\x7d")], by decide +kernel⟩
  have hopens : OpensAtOnce object := by
    unfold OpensAtOnce
    decide +kernel
  have hbound : bindings (exporting before object after) =
      bindings (exporting before object []) := by decide +kernel
  refine ⟨by decide +kernel, read_unchanged_behind (by decide +kernel) hobject hopens rfl ?_⟩
  exact fun name => congrArg (Record.get? name) hbound

/-- An object that a comment stands before is one all the same, but nothing is exported where the
opening brace does not follow the words at once. -/
theorem not_read_behind_comment :
    ¬ ("export" : Text) <:+: ([] : Text) ∧ IsObject "/**/\x7b\x7d" ∧
      Text.beginsWithWord ([] : Text) = false ∧
      read (exporting [] "/**/\x7b\x7d" []) = .error .noConfigObject :=
  ⟨by decide +kernel, ⟨[], by decide +kernel⟩, rfl, by decide +kernel⟩

end TailwindUpgrade.Config
