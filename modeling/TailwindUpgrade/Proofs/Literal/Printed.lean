/-
TailwindUpgrade/Proofs/Literal/Printed.lean

Printed data.  The JSON text of plain data is a literal of it (`shown_json`): every string in double
quotes, one escape for each UTF-16 unit, an entry on each line.  The text that the lenient reading
cuts out of a container for one of its entries is the JSON text of that entry, so the parts of what
was printed are found again as they were printed (`elements_json`, `properties_json`).
-/
import TailwindUpgrade.Literal.Print
import TailwindUpgrade.Proofs.Literal.Rendering

namespace TailwindUpgrade

/-- Plain data: integers that a floating-point number can stand for, texts of characters, and
objects that name each field once. -/
inductive Value.IsData : Value → Prop
  | null : IsData .null
  | bool (b : Bool) : IsData (.bool b)
  | int {n : Int} : Literal.HasFiniteNearest n → IsData (.int n)
  | str {text : Text} : text.IsScalar → IsData (.str text)
  | array {items : List Value} : (∀ item ∈ items, IsData item) → IsData (.array items)
  | object {fields : List (Text × Value)} :
      (fields.map Prod.fst).Nodup → (∀ field ∈ fields, Text.IsScalar field.1) →
      (∀ field ∈ fields, IsData field.2) → IsData (.object fields)

namespace Literal

open Text

/-! ### Strings -/

theorem isUnit_hexPadded (n : Nat) : IsUnit (hexPadded 4 n) := by
  refine ⟨length_hexPadded 4 n, ?_⟩
  have hdigit : ∀ n < 16, isHex (hexDigit n) = true := by decide
  have hall : ∀ width n, (hexPadded width n).all isHex = true := by
    intro width
    induction width with
    | zero => intro n; rfl
    | succ width ih =>
      intro n
      rw [hexPadded, List.all_append, ih, List.all_cons, hdigit _ (Nat.mod_lt _ (by decide))]
      rfl
  exact hall 4 n

theorem hexNumber_unit {c : CodePoint} {n : Nat} (h : n ∈ units16 c) :
    hexNumber (hexPadded 4 n) = n := by
  apply hexNumber_hexPadded
  have hlt := toNat_ofNat_of_mem_units16 h
  have hc := toNat_lt c
  unfold units16 at h
  simp only at h
  split at h
  · simp only [List.mem_cons, List.not_mem_nil, or_false] at h
    rw [h]
    assumption
  · simp only [List.mem_cons, List.not_mem_nil, or_false] at h
    show n < 65536
    omega

theorem quoted_unitEscape {q c : CodePoint} {n : Nat} (hn : n ∈ units16 c) {t u : Text}
    (h : Quoted q t u) : Quoted q (.ofNat n :: t) (unitEscape n ++ u) := by
  have := Quoted.unit (isUnit_hexPadded n) h
  rw [hexNumber_unit hn] at this
  exact this

/-- A code point of a JSON string is read as its UTF-16 units. -/
theorem quoted_jsonChar (c : CodePoint) {t u : Text} (h : Quoted '\"' t u) :
    Quoted '\"' ((units16 c).map .ofNat ++ t) (jsonChar c ++ u) := by
  -- up to U+FFFF a code point is its own unit
  have hself : c.toNat < 0x10000 → (units16 c).map .ofNat ++ t = c :: t := by
    intro hc
    rw [units16_of_lt hc, List.map_singleton, CodePoint.ofNat_toNat]
    rfl
  have hescaped : ∀ e : CodePoint, e ≠ '\n' → e ≠ 'u' → namedEscape e = c → c.toNat < 0x10000 →
      Quoted '\"' ((units16 c).map .ofNat ++ t) ([.char '\\', e] ++ u) := by
    intro e hline hu hc hlt
    rw [hself hlt, ← hc]
    exact .escaped hline (fun he => absurd he hu) h
  unfold jsonChar
  split_ifs with h₁ h₂ h₃ h₄ h₅ h₆ h₇
  · rcases h₁ with rfl | rfl
    · exact hescaped '\"' (by decide) (by decide) rfl (by decide)
    · exact hescaped '\\' (by decide) (by decide) rfl (by decide)
  · exact hescaped 'n' (by decide) (by decide) h₂.symm (by rw [h₂]; decide)
  · exact hescaped 'r' (by decide) (by decide) h₃.symm (by rw [h₃]; decide)
  · exact hescaped 't' (by decide) (by decide) h₄.symm (by rw [h₄]; decide)
  · exact hescaped 'b' (by decide) (by decide) h₅.symm (by rw [h₅]; decide)
  · exact hescaped 'f' (by decide) (by decide) h₆.symm (by rw [h₆]; decide)
  · rw [hself (by omega)]
    rw [not_or] at h₁
    exact .raw h₁.2 h₁.1 (fun hline => absurd hline h₂) h
  · -- one escape for each unit
    have hunits : ∀ ns : List Nat, (∀ n ∈ ns, n ∈ units16 c) →
        Quoted '\"' (ns.map .ofNat ++ t) (ns.flatMap unitEscape ++ u) := by
      intro ns
      induction ns with
      | nil => intro _; exact h
      | cons n ns ih =>
        intro hns
        rw [List.flatMap_cons, List.append_assoc]
        exact quoted_unitEscape (hns n (by simp)) (ih fun m hm => hns m (by simp [hm]))
    exact hunits _ fun n hn => hn

theorem quoted_json (t : Text) : Quoted '\"' (utf16 t) (t.flatMap jsonChar) := by
  induction t with
  | nil => exact .nil
  | cons c t ih => exact quoted_jsonChar c ih

theorem jsonString_eq (t : Text) :
    jsonString t = .char '\"' :: (t.flatMap jsonChar ++ [.char '\"']) := by
  rw [jsonString, List.append_assoc]
  rfl

theorem key_jsonString (k : Text) : Key (utf16 k) (jsonString k) := by
  rw [jsonString_eq]
  exact .quoted rfl (quoted_json k)

/-! ### Words -/

theorem word_intText {n : Int} (h : HasFiniteNearest n) : Word (.int n) (intText n) := by
  unfold intText
  split
  · show Word (.int n) (.char '-' :: natText n.natAbs)
    refine .minus h (natText_ne_nil _) isDigit_of_mem_natText (length_natText_le h) ?_
    rw [digitsValue_natText]
    omega
  · refine .digits h (natText_ne_nil _) isDigit_of_mem_natText (length_natText_le h) ?_
    rw [digitsValue_natText]
    omega

/-! ### Containers -/

theorem allBlank_newline (depth : Nat) : AllBlank (Value.newline depth) :=
  allBlank_append.2 ⟨allBlank_lineFeed, allBlank_spaces _⟩

theorem container_eq (opener closer : CodePoint) (depth : Nat) (items : List Text) :
    ∃ body, Value.container [opener] [closer] depth items = opener :: (body ++ [closer]) := by
  rw [Value.container]
  split
  · exact ⟨[], rfl⟩
  · exact ⟨List.intercalate "," (items.map (Value.newline (depth + 1) ++ ·)) ++ Value.newline depth,
      by simp⟩

/-- What a printed container holds is a list of its items, each with blanks behind it. -/
theorem listed_container {α : Type} {E : α → Text → Prop} (opener closer : CodePoint) (depth : Nat)
    (shown : α → Text) {as : List α}
    (hE : ∀ a ∈ as, ∀ b, AllBlank b → E a (shown a ++ b)) :
    ∃ body, Value.container [opener] [closer] depth (as.map shown) = opener :: body ∧
      Listed closer E as body := by
  cases as with
  | nil => exact ⟨[closer], rfl, .none .nil⟩
  | cons a as =>
    have hnewline : ∀ d, Gap (Value.newline d) := fun d => .of_allBlank (allBlank_newline d)
    refine ⟨_, by rw [Value.container, if_neg (by simp), List.append_assoc, List.append_assoc]; rfl,
      ?_⟩
    -- the induction is on the items after the first, each with a comma before it
    induction as generalizing a with
    | nil =>
      have := @Listed.last α closer E _ _ a (hnewline (depth + 1))
        (hE a (by simp) _ (allBlank_newline depth))
      simpa using this
    | cons a' as ih =>
      have hrest := ih a' fun c hc => hE c (by simp [hc])
      have := Listed.more (hnewline (depth + 1)) (hE a (by simp) [] allBlank_nil) hrest
      simpa [List.intercalate, Text.ofString] using this

/-! ### Values -/

/-- The text `e` writes the value `v`, read in UTF-16, and may stand in any container. -/
def Shown (v : Value) (e : Text) : Prop := (Word v e ∧ v.utf16 = v) ∨ Closed v.utf16 e

theorem Shown.placed {v : Value} {e b : Text} (h : Shown v e) (hb : AllBlank b) :
    PlacedValue Closed v.utf16 e (e ++ b) := by
  rcases h with ⟨hword, hutf⟩ | hclosed
  · rw [hutf]
    exact .bare hword.bare (hword.wordlike.trailing hb)
  · have := PlacedValue.closed hclosed (Gap.of_allBlank hb)
    rwa [stripEnd_append_blanks hclosed.reads.trimmed hb] at this

theorem Shown.read {v : Value} {e : Text} (h : Shown v e) : Literal.read e = .ok v.utf16 :=
  (h.placed allBlank_nil).read_source fun _ _ hu => hu.reads

/-- An entry of a printed array. -/
def shownItem (depth : Nat) (v : Value) : Value × Text := (v.utf16, v.json depth)

/-- An entry of a printed object. -/
def shownEntry (depth : Nat) (f : Text × Value) : Entry :=
  ⟨.keyed (utf16 f.1), f.2.utf16, f.2.json depth⟩

theorem Shown.itemText {depth : Nat} {v : Value} {b : Text} (h : Shown v (v.json depth))
    (hb : AllBlank b) : ItemText Closed (shownItem depth v) (v.json depth ++ b) := by
  refine .value (h.placed hb) ?_
  -- printed data begins with no point, so it is no spread
  obtain ⟨c, r, hcr, hpoint⟩ : ∃ c r, v.json depth = c :: r ∧ c ≠ .char '.' := by
    rcases h with ⟨hword, -⟩ | hclosed
    · obtain ⟨c, r, hcr, -, -, -, hpoint⟩ := hword.wordlike.head
      exact ⟨c, r, hcr, hpoint⟩
    · obtain ⟨c, r, hcr, -, -, hpoint, -⟩ := hclosed.reads.head
      exact ⟨c, r, hcr, hpoint⟩
  rw [hcr]
  exact dots_isPrefixOf hpoint _

theorem Shown.fieldText {depth : Nat} {f : Text × Value} {b : Text}
    (h : Shown f.2 (f.2.json depth)) (hb : AllBlank b) :
    FieldText Closed (shownEntry depth f) (jsonString f.1 ++ ": " ++ f.2.json depth ++ b) := by
  have hspace : Gap [.char ' '] := .blank rfl .nil
  have := FieldText.keyed (key_jsonString f.1) .nil hspace (h.placed hb)
  simpa [Text.ofString, shownEntry] using this

theorem jsonItems_eq (depth : Nat) (items : List Value) :
    Value.jsonItems depth items = items.map (Value.json depth) := by
  induction items with
  | nil => rfl
  | cons item rest ih => rw [Value.jsonItems, ih, List.map_cons]

theorem jsonFields_eq (depth : Nat) (fields : List (Text × Value)) :
    Value.jsonFields depth fields =
      fields.map fun f => jsonString f.1 ++ ": " ++ f.2.json depth := by
  induction fields with
  | nil => rfl
  | cons field rest ih =>
    obtain ⟨name, value⟩ := field
    rw [Value.jsonFields, ih, List.map_cons]

theorem listed_jsonItems (depth : Nat) {items : List Value}
    (h : ∀ v ∈ items, Shown v (v.json (depth + 1))) :
    ∃ body, (Value.array items).json depth = .char '[' :: body ∧
      Listed ']' (ItemText Closed) (items.map (shownItem (depth + 1))) body := by
  obtain ⟨body, hbody, hlisted⟩ := listed_container '[' ']' depth (Value.json (depth + 1))
    (E := fun v x => ItemText Closed (shownItem (depth + 1) v) x) fun v hv b hb => (h v hv).itemText hb
  refine ⟨body, ?_, hlisted.map⟩
  rw [Value.json, jsonItems_eq]
  exact hbody

theorem listed_jsonFields (depth : Nat) {fields : List (Text × Value)}
    (h : ∀ f ∈ fields, Shown f.2 (f.2.json (depth + 1))) :
    ∃ body, (Value.object fields).json depth = .char '\x7b' :: body ∧
      Listed '\x7d' (FieldText Closed) (fields.map (shownEntry (depth + 1))) body := by
  obtain ⟨body, hbody, hlisted⟩ := listed_container '\x7b' '\x7d' depth
    (fun f : Text × Value => jsonString f.1 ++ ": " ++ f.2.json (depth + 1))
    (E := fun f x => FieldText Closed (shownEntry (depth + 1) f) x)
    fun f hf b hb => (h f hf).fieldText hb
  refine ⟨body, ?_, hlisted.map⟩
  rw [Value.json, jsonFields_eq]
  exact hbody

/-- Names of characters stay distinct in UTF-16. -/
theorem nodup_utf16 {fields : List (Text × Value)} (hnames : (fields.map Prod.fst).Nodup)
    (hscalar : ∀ f ∈ fields, IsScalar f.1) : (fields.map fun f => utf16 f.1).Nodup := by
  have := hnames.map_on (f := utf16) (by
    intro s hs t ht hst
    obtain ⟨f, hf, rfl⟩ := List.mem_map.1 hs
    obtain ⟨f', hf', rfl⟩ := List.mem_map.1 ht
    exact utf16_injective (hscalar f hf) (hscalar f' hf') hst)
  rwa [List.map_map] at this

/-- Plain data is printed as a literal of it. -/
theorem shown_json {v : Value} (h : v.IsData) : ∀ depth, Shown v (v.json depth) := by
  induction h with
  | null => exact fun _ => .inl ⟨.nullWord, rfl⟩
  | bool b =>
    cases b with
    | true => exact fun _ => .inl ⟨.trueWord, rfl⟩
    | false => exact fun _ => .inl ⟨.falseWord, rfl⟩
  | int hn => exact fun _ => .inl ⟨word_intText hn, rfl⟩
  | @str text _ =>
    intro depth
    rw [Value.json, jsonString_eq]
    exact .inr (.string rfl (quoted_json text))
  | @array items _ ih =>
    intro depth
    obtain ⟨body, hbody, hlisted⟩ := listed_jsonItems depth fun v hv => ih v hv _
    have hclosed := Closed.array (fun _ _ hu => hu) hlisted
    rw [List.map_map] at hclosed
    rw [hbody, Shown, Value.utf16, Value.utf16Items_eq]
    exact .inr hclosed
  | @object fields hnames hscalar _ ih =>
    intro depth
    obtain ⟨body, hbody, hlisted⟩ := listed_jsonFields depth fun f hf => ih f hf _
    have hclosed := Closed.object (fun _ _ hu => hu) hlisted
    rw [List.map_map, Record.ofList_of_nodup] at hclosed
    · rw [hbody, Shown, Value.utf16, Value.utf16Fields_eq]
      exact .inr hclosed
    · rw [List.map_map]
      exact nodup_utf16 hnames hscalar

/-! ### Parts of what was printed -/

/-- Printed data reads back. -/
theorem read_json {v : Value} (h : v.IsData) (depth : Nat) :
    Literal.read (v.json depth) = .ok v.utf16 := (shown_json h depth).read

/-- The entries of a printed array are found as they were printed. -/
theorem elements_json {items : List Value} (h : (Value.array items).IsData) (depth : Nat) :
    elements ((Value.array items).json depth) =
      ⟨items.map (Value.json (depth + 1)), none⟩ := by
  cases h with
  | array h =>
    obtain ⟨body, hbody, hlisted⟩ := listed_jsonItems depth fun v hv => shown_json (h v hv) _
    have hraw := rawContainer_append (g := []) (t := []) isCloser_bracket
      (fun _ _ hx => hx.readAs_rawItem fun _ _ hu => hu.reads) .nil
      solid_bracket hlisted
    rw [List.append_nil, List.nil_append, List.map_map] at hraw
    rw [hbody]
    exact hraw

/-- The entries of a printed object are found as they were printed. -/
theorem properties_json {fields : List (Text × Value)} (h : (Value.object fields).IsData)
    (depth : Nat) :
    properties ((Value.object fields).json depth) =
      ⟨fields.map fun f => (utf16 f.1, f.2.json (depth + 1)), none⟩ := by
  cases h with
  | object _ _ h =>
    obtain ⟨body, hbody, hlisted⟩ := listed_jsonFields depth fun f hf => shown_json (h f hf) _
    have hraw := rawContainer_append (g := []) (t := []) isCloser_brace
      (fun _ _ hx => hx.readAs_rawField fun _ _ hu => hu.reads) .nil
      solid_brace hlisted
    rw [List.append_nil, List.nil_append, List.map_map] at hraw
    rw [hbody]
    exact hraw

end Literal

end TailwindUpgrade
