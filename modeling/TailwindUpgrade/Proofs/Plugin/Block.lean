/-
TailwindUpgrade/Proofs/Plugin/Block.lean

Every plugin is accounted for.  A plugin is known by a word in its name or in its module; what it
comes to (`Outcome`) depends on which words these are, on whether it has a module, and, for daisyUI
alone, on the plugins that are listed before it.  `account` lists what all plugins come to, in their
order, with daisyUI at the end if there are settings for it and no plugin asks for it.

Main result: the blocks and the notices are those of the account, one outcome after another, and
daisyUI is in it at most once (`plugins_accounted`).  The line that loads a module by its name is
never taken for the block of daisyUI, since a module that begins with that name is known by it.
-/
import Mathlib.Data.List.Count
import Mathlib.Data.List.Infix
import TailwindUpgrade.Plugin.Block

namespace TailwindUpgrade.Plugin

namespace Descriptor

/-- A word stands in the name of a plugin, or in its module if it has one. -/
def Mentions (word : Text) (d : Descriptor) : Prop :=
  word <:+: d.name ∨ d.module.isTruthy = true ∧ word <:+: d.module.display

/-- The typography plugin. -/
def IsTypography (d : Descriptor) : Prop := d.Mentions "typography"

/-- The daisyUI plugin.  What mentions both is the typography plugin. -/
def IsDaisy (d : Descriptor) : Prop := d.Mentions "daisyui" ∧ ¬ d.IsTypography

instance (word : Text) (d : Descriptor) : Decidable (d.Mentions word) :=
  inferInstanceAs (Decidable (_ ∨ _))

instance (d : Descriptor) : Decidable d.IsTypography :=
  inferInstanceAs (Decidable (d.Mentions _))

instance (d : Descriptor) : Decidable d.IsDaisy := inferInstanceAs (Decidable (_ ∧ _))

end Descriptor

/-- Some plugin is daisyUI. -/
def HasDaisy (ds : List Descriptor) : Prop := ∃ d ∈ ds, d.IsDaisy

instance (ds : List Descriptor) : Decidable (HasDaisy ds) :=
  inferInstanceAs (Decidable (∃ d ∈ ds, d.IsDaisy))

/-- What a plugin comes to: the block of typography or of daisyUI, nothing because daisyUI has its
block, the line that loads its module, or a notice that it is unknown. -/
inductive Outcome where
  | typography
  | daisy
  | repeated
  | loaded (module : Text)
  | unmapped (name : Text)
  deriving DecidableEq

/-- What a plugin comes to that is listed behind others. -/
def Descriptor.outcome (before : List Descriptor) (d : Descriptor) : Outcome :=
  if d.IsTypography then .typography
  else if d.IsDaisy then if HasDaisy before then .repeated else .daisy
  else if d.module.isTruthy then .loaded d.module.display
  else .unmapped d.name

/-- What plugins come to that are listed behind others. -/
def outcomes (before ds : List Descriptor) : List Outcome :=
  ds.mapIdx fun i d => d.outcome (before ++ ds.take i)

/-- There are settings for daisyUI. -/
def HasDaisySettings (config : Value) : Prop :=
  ((config.field? "daisyui").bind Value.fields?).isSome = true

instance (config : Value) : Decidable (HasDaisySettings config) :=
  inferInstanceAs (Decidable (_ = true))

/-- What all plugins of a configuration come to; daisyUI comes last if it has settings and no plugin
asks for it. -/
def account (config : Value) : List Outcome :=
  outcomes [] (listed config) ++
    if HasDaisySettings config ∧ ¬ HasDaisy (listed config) then [.daisy] else []

/-- The blocks and the notices of an outcome. -/
def Outcome.result (config : Value) : Outcome → Reported Notice (List (List Text))
  | typography => (typographyBlock config).map ([·])
  | daisy => (listedDaisyBlock config).map ([·])
  | repeated => .silent []
  | loaded module => .silent [[loadLine module]]
  | unmapped name => ⟨[], [.unknownPlugin name]⟩

/-- The blocks and the notices of outcomes, one after another. -/
def results (config : Value) (os : List Outcome) : Reported Notice (List (List Text)) :=
  ⟨os.flatMap fun o => (o.result config).value, os.flatMap fun o => (o.result config).notices⟩

/-- A block whose first line begins like that of daisyUI. -/
def loadsDaisy (block : List Text) : Bool :=
  block.head?.any (Text.beginsWith "@plugin \"daisyui\"")

/-! ### What a plugin is known by -/

/-- A word without a space that stands in two texts with a space between them stands in one of
them. -/
theorem infix_space_iff {word s t : Text} (hword : .char ' ' ∉ word) :
    word <:+: s ++ .char ' ' :: t ↔ word <:+: s ∨ word <:+: t := by
  constructor
  · rintro ⟨p, q, h⟩
    rw [List.append_assoc] at h
    rcases List.append_eq_append_iff.1 h with ⟨r, rfl, hr⟩ | ⟨r, rfl, hr⟩
    · -- the word begins in the first text
      rcases List.append_eq_append_iff.1 hr with ⟨r', rfl, -⟩ | ⟨r', rfl, hr'⟩
      · exact .inl ⟨p, r', List.append_assoc p word r'⟩
      · cases r' with
        | nil => exact .inl ⟨p, [], by simp⟩
        | cons c r' =>
          obtain rfl : CodePoint.char ' ' = c := (List.cons.inj hr').1
          simp at hword
    · cases r with
      | nil =>
        -- a word that begins at the space is empty
        cases word with
        | nil => exact .inl List.nil_infix
        | cons c word =>
          obtain rfl : CodePoint.char ' ' = c := (List.cons.inj hr).1
          simp at hword
      | cons c r => exact .inr ⟨r, q, by simpa using (List.cons.inj hr).2.symm⟩
  · rintro (⟨p, q, rfl⟩ | ⟨p, q, rfl⟩)
    · exact ⟨p, q ++ .char ' ' :: t, by simp⟩
    · exact ⟨s ++ .char ' ' :: p, q, by simp⟩

theorem occursIn_identity_iff (word : Text) (hne : word ≠ []) (hword : .char ' ' ∉ word)
    (d : Descriptor) : Text.occursIn word d.identity = true ↔ d.Mentions word := by
  have hspace : (" " : Text) = [.char ' '] := rfl
  rw [Text.occursIn_iff, Descriptor.identity, Descriptor.Mentions, hspace, List.append_assoc,
    List.singleton_append, infix_space_iff hword]
  split
  · next htruthy => simp only [htruthy, true_and]
  · next htruthy =>
    have hempty : ¬ word <:+: (("" : String) : Text) := fun h => hne (List.infix_nil.1 h)
    simp only [hempty, htruthy, Bool.false_eq_true, false_and]

/-- The kind of a plugin is told by the words that it mentions. -/
theorem kind_eq (d : Descriptor) :
    d.kind =
      if d.IsTypography then .typography
      else if d.IsDaisy then .daisy
      else if d.module.isTruthy then .plain d.module.display
      else .unknown := by
  have htypography := occursIn_identity_iff "typography" (by decide) (by decide) d
  have hdaisy := occursIn_identity_iff "daisyui" (by decide) (by decide) d
  rw [Descriptor.kind]
  by_cases h : d.IsTypography
  · rw [if_pos h, if_pos (htypography.2 h)]
  · rw [if_neg h, if_neg (mt htypography.1 h)]
    by_cases h' : d.Mentions "daisyui"
    · rw [if_pos (hdaisy.2 h'), if_pos ⟨h', h⟩]
    · have hnot : ¬ d.IsDaisy := fun hd => h' hd.1
      rw [if_neg (mt hdaisy.1 h'), if_neg hnot]

/-! ### The block of daisyUI -/

theorem daisyBlock_of_not_hasDaisySettings {config : Value} (h : ¬ HasDaisySettings config) :
    daisyBlock config = .silent [] := by
  rw [daisyBlock]
  split
  · next settings hsettings =>
    rw [HasDaisySettings, hsettings] at h
    exact absurd rfl h
  · rfl

/-- Where there are settings, the block has lines, and the first of them loads daisyUI. -/
theorem head_daisyBlock {config : Value} (h : HasDaisySettings config) :
    (daisyBlock config).value.head? = some ("@plugin \"daisyui\"" ++ " \x7b") := by
  rw [daisyBlock]
  split
  · rfl
  · next hnone =>
    -- no settings could have been found
    obtain ⟨settings, hsettings⟩ := Option.isSome_iff_exists.1 h
    obtain ⟨v, hv, hfields⟩ := Option.bind_eq_some_iff.1 hsettings
    cases v with
    | object fields => exact absurd hv (hnone fields)
    | _ => cases hfields

theorem isEmpty_daisyBlock {config : Value} (h : HasDaisySettings config) :
    (daisyBlock config).value.isEmpty = false := by
  rw [List.isEmpty_eq_false_iff]
  intro hnil
  have hhead := head_daisyBlock h
  rw [hnil] at hhead
  cases hhead

theorem listedDaisyBlock_of_hasDaisySettings {config : Value} (h : HasDaisySettings config) :
    listedDaisyBlock config = daisyBlock config := by
  rw [listedDaisyBlock, Reported.map, isEmpty_daisyBlock h]
  rfl

theorem loadsDaisy_listedDaisyBlock (config : Value) :
    loadsDaisy (listedDaisyBlock config).value = true := by
  by_cases h : HasDaisySettings config
  · rw [listedDaisyBlock_of_hasDaisySettings h, loadsDaisy, head_daisyBlock h]
    decide
  · rw [listedDaisyBlock, daisyBlock_of_not_hasDaisySettings h]
    decide

/-! ### Blocks that are not that of daisyUI -/

theorem loadsDaisy_typographyBlock (config : Value) :
    loadsDaisy (typographyBlock config).value = false := by
  show loadsDaisy (if (overrideLines 1 (typographyOverrides config)).isEmpty then _ else _) = false
  split
  · decide
  · rfl

/-- A line that loads a module begins like the block of daisyUI only if the module does. -/
theorem loadsDaisy_loadLine {module : Text} (h : ¬ ("daisyui" : Text) <:+: module) :
    loadsDaisy [loadLine module] = false := by
  rw [Bool.eq_false_iff]
  intro hloads
  have hbegins : Text.beginsWith "@plugin \"daisyui\"" (loadLine module) = true := hloads
  obtain ⟨t, ht⟩ := List.isPrefixOf_iff_prefix.1 hbegins
  have hline : ("@plugin \"" : Text) ++ (("daisyui" : Text) ++ .char '\"' :: t) =
      ("@plugin \"" : Text) ++ (module ++ .char '\"' :: [.char ';']) := by
    rw [loadLine, List.append_assoc] at ht
    exact ht
  rcases List.append_eq_append_iff.1 (List.append_cancel_left hline) with
    ⟨r, rfl, -⟩ | ⟨r, hname, hr⟩
  · exact h ⟨[], r, rfl⟩
  · cases r with
    | nil =>
      rw [List.append_nil] at hname
      exact h (hname ▸ List.infix_rfl)
    | cons c r =>
      -- the quote behind the module would stand in the name
      obtain rfl : CodePoint.char '\"' = c := (List.cons.inj hr).1
      have hquote : CodePoint.char '\"' ∉ ("daisyui" : Text) := by decide
      rw [hname] at hquote
      simp at hquote

/-! ### One plugin after another -/

theorem hasDaisy_concat {before : List Descriptor} {d : Descriptor} :
    HasDaisy (before ++ [d]) ↔ HasDaisy before ∨ d.IsDaisy := by
  simp [HasDaisy, or_and_right, exists_or]

theorem outcomes_cons (before : List Descriptor) (d : Descriptor) (ds : List Descriptor) :
    outcomes before (d :: ds) = d.outcome before :: outcomes (before ++ [d]) ds := by
  have hfirst : before ++ (d :: ds).take 0 = before := List.append_nil before
  -- the plugins before the others are those before this one, and this one
  have hothers : (fun i (e : Descriptor) => e.outcome (before ++ (d :: ds).take (i + 1))) =
      fun i e => e.outcome (before ++ [d] ++ ds.take i) := by
    funext i e
    rw [List.take_succ_cons, List.append_assoc, List.singleton_append]
  rw [outcomes, List.mapIdx_cons, hfirst, hothers, outcomes]

theorem results_cons (config : Value) (o : Outcome) (os : List Outcome) :
    results config (o :: os) =
      (o.result config).andThen fun blocks => (results config os).map (blocks ++ ·) := rfl

/-- What is done with one plugin behind others. -/
theorem blocksFrom_cons (config : Value) (before : List Descriptor) (d : Descriptor)
    (ds : List Descriptor) :
    blocksFrom config (decide (HasDaisy before)) (d :: ds) =
      ((d.outcome before).result config).andThen fun blocks =>
        (blocksFrom config (decide (HasDaisy (before ++ [d]))) ds).map (blocks ++ ·) := by
  rw [blocksFrom, kind_eq, Descriptor.outcome]
  by_cases htypography : d.IsTypography
  · have hdaisy : ¬ d.IsDaisy := fun h => h.2 htypography
    have hdone : HasDaisy (before ++ [d]) ↔ HasDaisy before := by
      rw [hasDaisy_concat, or_iff_left hdaisy]
    simp only [if_pos htypography, hdone]
    rfl
  by_cases hdaisy : d.IsDaisy
  · have hdone : HasDaisy (before ++ [d]) := hasDaisy_concat.2 (.inr hdaisy)
    by_cases hbefore : HasDaisy before
    · simp only [if_neg htypography, if_pos hdaisy, hbefore, hdone, decide_true, if_true]
      rfl
    · simp only [if_neg htypography, if_pos hdaisy, hbefore, hdone, decide_true, decide_false,
        if_false, Bool.false_eq_true]
      rfl
  · have hdone : HasDaisy (before ++ [d]) ↔ HasDaisy before := by
      rw [hasDaisy_concat, or_iff_left hdaisy]
    simp only [if_neg htypography, if_neg hdaisy, hdone]
    by_cases hmodule : d.module.isTruthy = true
    · simp only [if_pos hmodule]
      rfl
    · simp only [if_neg hmodule]
      rfl

/-- What is done behind the last plugin. -/
theorem blocksFrom_nil (config : Value) (before : List Descriptor) :
    blocksFrom config (decide (HasDaisy before)) [] =
      results config (if HasDaisySettings config ∧ ¬ HasDaisy before then [.daisy] else []) := by
  rw [blocksFrom]
  by_cases hbefore : HasDaisy before
  · simp only [hbefore, decide_true, if_true, not_true_eq_false, and_false, if_false]
    rfl
  by_cases hsettings : HasDaisySettings config
  · simp only [hbefore, hsettings, decide_false, not_false_eq_true, and_self, if_true, if_false,
      Bool.false_eq_true, Reported.map, isEmpty_daisyBlock hsettings]
    rw [results, List.flatMap_singleton, List.flatMap_singleton, Outcome.result,
      listedDaisyBlock_of_hasDaisySettings hsettings]
    rfl
  · rw [daisyBlock_of_not_hasDaisySettings hsettings]
    simp only [hbefore, hsettings, decide_false, false_and, if_false, Bool.false_eq_true]
    rfl

/-- The blocks for plugins behind others are those of their outcomes. -/
theorem blocksFrom_eq (config : Value) (before ds : List Descriptor) :
    blocksFrom config (decide (HasDaisy before)) ds =
      results config (outcomes before ds ++
        if HasDaisySettings config ∧ ¬ HasDaisy (before ++ ds) then [.daisy] else []) := by
  induction ds generalizing before with
  | nil =>
    rw [List.append_nil]
    exact blocksFrom_nil config before
  | cons d ds ih =>
    rw [blocksFrom_cons, ih, outcomes_cons, List.cons_append, results_cons, List.append_assoc,
      List.singleton_append]

theorem blocks_eq (config : Value) : blocks config = results config (account config) :=
  blocksFrom_eq config [] (listed config)

/-! ### How often daisyUI comes up -/

theorem outcome_eq_daisy_iff {before : List Descriptor} {d : Descriptor} :
    d.outcome before = .daisy ↔ d.IsDaisy ∧ ¬ HasDaisy before := by
  rw [Descriptor.outcome]
  by_cases htypography : d.IsTypography
  · rw [if_pos htypography]
    simp only [reduceCtorEq, false_iff, not_and]
    intro hdaisy
    exact absurd htypography hdaisy.2
  · rw [if_neg htypography]
    split_ifs with hdaisy hbefore hmodule <;> simp [*]

/-- Behind other plugins, daisyUI comes up once if it is listed and was not listed before. -/
theorem count_outcomes (before ds : List Descriptor) :
    (outcomes before ds).count .daisy = if HasDaisy ds ∧ ¬ HasDaisy before then 1 else 0 := by
  induction ds generalizing before with
  | nil => simp [outcomes, HasDaisy]
  | cons d ds ih =>
    have hcons : HasDaisy (d :: ds) ↔ d.IsDaisy ∨ HasDaisy ds := by simp [HasDaisy]
    rw [outcomes_cons, List.count_cons, ih]
    by_cases hbefore : HasDaisy before
    · simp [outcome_eq_daisy_iff, hasDaisy_concat, hbefore]
    · by_cases hdaisy : d.IsDaisy
      · simp [outcome_eq_daisy_iff, hasDaisy_concat, hcons, hbefore, hdaisy]
      · simp [outcome_eq_daisy_iff, hasDaisy_concat, hcons, hbefore, hdaisy]

/-- A module that is loaded by its name is not that of daisyUI. -/
theorem not_infix_of_loaded {before : List Descriptor} {d : Descriptor} {module : Text}
    (h : d.outcome before = .loaded module) : ¬ ("daisyui" : Text) <:+: module := by
  rw [Descriptor.outcome] at h
  split_ifs at h with htypography hdaisy hbefore hmodule
  obtain rfl := Outcome.loaded.inj h
  intro hname
  exact hdaisy ⟨.inr ⟨hmodule, hname⟩, htypography⟩

theorem countP_result (config : Value) {o : Outcome}
    (h : ∀ module, o = .loaded module → ¬ ("daisyui" : Text) <:+: module) :
    (o.result config).value.countP loadsDaisy = [o].count .daisy := by
  cases o with
  | typography =>
    show [(typographyBlock config).value].countP loadsDaisy = _
    rw [List.countP_singleton, loadsDaisy_typographyBlock]
    rfl
  | daisy =>
    show [(listedDaisyBlock config).value].countP loadsDaisy = _
    rw [List.countP_singleton, loadsDaisy_listedDaisyBlock]
    rfl
  | repeated => rfl
  | loaded module =>
    show [[loadLine module]].countP loadsDaisy = _
    rw [List.countP_singleton, loadsDaisy_loadLine (h module rfl)]
    rfl
  | unmapped name => rfl

theorem count_account (config : Value) :
    (account config).count .daisy =
      if HasDaisySettings config ∨ HasDaisy (listed config) then 1 else 0 := by
  have hnone : ¬ HasDaisy [] := by simp [HasDaisy]
  rw [account, List.count_append, count_outcomes]
  by_cases hlisted : HasDaisy (listed config)
  · simp [hlisted, hnone]
  · by_cases hsettings : HasDaisySettings config
    · simp [hlisted, hsettings]
    · simp [hlisted, hsettings]

theorem mem_account {config : Value} {module : Text} (h : .loaded module ∈ account config) :
    ¬ ("daisyui" : Text) <:+: module := by
  rcases List.mem_append.1 h with hlisted | hlast
  · obtain ⟨i, hi, houtcome⟩ := List.mem_mapIdx.1 hlisted
    exact not_infix_of_loaded houtcome
  · split at hlast
    · simp at hlast
    · cases hlast

theorem countP_results (config : Value) {os : List Outcome}
    (h : ∀ module, .loaded module ∈ os → ¬ ("daisyui" : Text) <:+: module) :
    (results config os).value.countP loadsDaisy = os.count .daisy := by
  induction os with
  | nil => rfl
  | cons o os ih =>
    have hfirst := countP_result config fun module ho => h module (ho ▸ List.mem_cons_self)
    have hrest := ih fun module hm => h module (List.mem_cons_of_mem o hm)
    rw [results_cons, ← List.singleton_append (l := os), List.count_append, ← hfirst, ← hrest]
    exact List.countP_append

/-- **Every plugin is accounted for.**  The blocks and notices are those of what the plugins come
to, in their order and with daisyUI last if nothing asks for it.  Just once, if it is listed or has
settings, and else never, is the block of daisyUI made, and nothing else begins like it. -/
theorem plugins_accounted (config : Value) :
    (blocks config).value = (account config).flatMap (fun o => (o.result config).value) ∧
      (blocks config).notices = (account config).flatMap (fun o => (o.result config).notices) ∧
      (account config).count .daisy =
        (if HasDaisySettings config ∨ HasDaisy (listed config) then 1 else 0) ∧
      (blocks config).value.countP loadsDaisy =
        (if HasDaisySettings config ∨ HasDaisy (listed config) then 1 else 0) := by
  have hblocks := blocks_eq config
  refine ⟨congrArg Reported.value hblocks, congrArg Reported.notices hblocks,
    count_account config, ?_⟩
  rw [hblocks, countP_results config fun module => mem_account, count_account]

end TailwindUpgrade.Plugin
