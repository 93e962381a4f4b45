/-
TailwindUpgrade/Proofs/Cli/Frame.lean

What a run of the command changes, and how it ends.  A run reads two texts, each from a file that is
given or from one that is found (`ReadsInput`); these two are all that its result depends on.  If
one of them is missing, nothing is migrated and the status is 2; otherwise the migration decides
between 0 and 1.

A file is changed only at the very end of a run that succeeded, and only the one that the result is
to be written to (`contents?_delivered`).  Both texts have been read by then, so that file may be
one of the two.  Folders may be made on the way to it, but these are no files.

Main results: whatever a run ends with, it changes no other file (`contents?_run_of_ne`), and if it
ends with a status, it is known what it changed and printed and why it has this status
(`run_accounted`).
-/
import TailwindUpgrade.Cli.Run
import TailwindUpgrade.Css.Rule
import TailwindUpgrade.Proofs.Project.Tree

namespace TailwindUpgrade.Cli

open Project (Disk Location)

variable {lib : Css.Library} {disk : Disk} {options : Options}

/-! ### What a run reads -/

/-- What one of the two files of a run is: the one at the path that is given, or the one that is
found in the root folder. -/
inductive IsSource (disk : Disk) (options : Options) (given : Option String)
    (find : Location → Except Project.Failure (Option Location)) : Source → Prop
  | given {path : String} :
      given = some path → IsSource disk options given find (.given (.ofText path))
  | found {root location : Location} :
      given = none → rootFolder disk options = .ok root → find root = .ok (some location) →
        IsSource disk options given find (.found location)

/-- The configuration of a run is found, and it is a text. -/
def ReadsConfig (disk : Disk) (options : Options) (config : Text) : Prop :=
  ∃ source, IsSource disk options options.config (Project.findConfig disk) source ∧
    source.read disk = .ok config

/-- The stylesheet of a run is found, and it is a text. -/
def ReadsStylesheet (disk : Disk) (options : Options) (css : Text) : Prop :=
  ∃ source, IsSource disk options options.css (Project.findEntry disk) source ∧
    source.read disk = .ok css

/-- Both files of a run are found and are texts. -/
def ReadsInput (disk : Disk) (options : Options) (config css : Text) : Prop :=
  ReadsConfig disk options config ∧ ReadsStylesheet disk options css

/-! ### Finding and reading -/

theorem bind_eq_ok {ε α β : Type} {first : Except ε α} {next : α → Except ε β} {result : β} :
    (first >>= next) = .ok result ↔ ∃ value, first = .ok value ∧ next value = .ok result := by
  cases first <;> simp [bind, Except.bind]

theorem mapError_eq_ok {ε δ α : Type} {first : Except ε α} {wrap : ε → δ} {result : α} :
    first.mapError wrap = .ok result ↔ first = .ok result := by
  cases first <;> simp [Except.mapError]

/-- Both files of a run are found in the same way: by the path that is given, or else in the root
folder, where what stands in the way and a file that is not there are reported. -/
def sought (disk : Disk) (options : Options) (given : Option String)
    (find : Location → Except Project.Failure (Option Location))
    (report : Project.Failure → InputFailure) (missing : Location → InputFailure) :
    Except InputFailure Source :=
  match given with
  | some path => .ok (.given (.ofText path))
  | none => do
    let root ← rootFolder disk options
    match ← (find root).mapError report with
    | some location => .ok (.found location)
    | none => .error (missing root)

theorem configSource_eq : configSource disk options =
    sought disk options options.config (Project.findConfig disk) .unusableRoot .noConfig := rfl

theorem cssSource_eq : cssSource disk options =
    sought disk options options.css (Project.findEntry disk) .unreadable .noStylesheet := rfl

theorem sought_eq_ok {given : Option String}
    {find : Location → Except Project.Failure (Option Location)}
    {report : Project.Failure → InputFailure} {missing : Location → InputFailure}
    {source : Source} :
    sought disk options given find report missing = .ok source ↔
      IsSource disk options given find source := by
  cases given with
  | some path =>
    rw [sought]
    constructor
    · intro h
      cases h
      exact .given rfl
    · rintro (⟨h⟩ | ⟨h⟩)
      · cases h
        rfl
      · cases h
  | none =>
    simp only [sought, bind_eq_ok, mapError_eq_ok]
    constructor
    · rintro ⟨root, hroot, location?, hfind, h⟩
      cases location? with
      | some location =>
        cases h
        exact .found rfl hroot hfind
      | none => cases h
    · rintro (⟨h⟩ | ⟨-, hroot, hfind⟩)
      · cases h
      · exact ⟨_, hroot, _, hfind, rfl⟩

/-- A run has its input exactly if it reads both files. -/
theorem readsInput_iff {config css : Text} :
    ReadsInput disk options config css ↔
      ∃ configSource cssSource,
        input disk options = .ok ⟨configSource, cssSource, config, css⟩ := by
  simp only [input, configSource_eq, cssSource_eq, bind_eq_ok, mapError_eq_ok, sought_eq_ok]
  constructor
  · rintro ⟨⟨first, hfirst, hconfig⟩, second, hsecond, hcss⟩
    exact ⟨first, second, first, hfirst, second, hsecond, config, hconfig, css, hcss, rfl⟩
  · rintro ⟨_, _, first, hfirst, second, hsecond, _, hconfig, _, hcss, h⟩
    cases h
    exact ⟨⟨_, hfirst, hconfig⟩, _, hsecond, hcss⟩

/-- What a run reads is determined by the tree and the options. -/
theorem ReadsInput.unique {config css config' css' : Text}
    (h : ReadsInput disk options config css) (h' : ReadsInput disk options config' css') :
    config = config' ∧ css = css' := by
  obtain ⟨_, _, hinput⟩ := readsInput_iff.1 h
  obtain ⟨_, _, hinput'⟩ := readsInput_iff.1 h'
  cases hinput.symm.trans hinput'
  exact ⟨rfl, rfl⟩

theorem runWith_of_migrates {config css : Text} {outcome : Migration.Outcome}
    (h : ReadsInput disk options config css)
    (hmigrates : Migration.convert lib config css = .ok outcome) :
    ∃ log, runWith lib disk options = delivered disk options log outcome := by
  obtain ⟨_, _, hinput⟩ := readsInput_iff.1 h
  rw [runWith, hinput]
  simp only [hmigrates]
  exact ⟨_, rfl⟩

theorem runWith_of_interrupted {config css : Text} {interruption : Migration.Interruption}
    (h : ReadsInput disk options config css)
    (hbroken : Migration.convert lib config css = .error interruption) :
    ∃ log, runWith lib disk options = interrupted disk log interruption := by
  obtain ⟨_, _, hinput⟩ := readsInput_iff.1 h
  rw [runWith, hinput]
  simp only [hbroken]
  exact ⟨_, rfl⟩

theorem runWith_of_not_reads (h : ∀ config css, ¬ ReadsInput disk options config css) :
    ∃ failure, runWith lib disk options = withoutInput disk failure := by
  rw [runWith]
  cases hinput : input disk options with
  | error failure => exact ⟨failure, rfl⟩
  | ok found => exact absurd (readsInput_iff.2 ⟨_, _, hinput⟩) (h found.config found.css)

/-! ### The file to write to -/

/-- The location of a file that is given by its path. -/
def target (disk : Disk) (output : String) : Location := .resolve disk.current (.ofText output)

/-- What comes out is to be written to a file: its path is given, and is not empty. -/
def WritesTo (options : Options) (output : String) : Prop :=
  options.output = some output ∧ output ≠ ""

theorem bind_nonempty_ne (value : Option String) : value.bind Options.nonempty ≠ some "" := by
  intro h
  obtain ⟨text, -, htext⟩ := Option.bind_eq_some_iff.1 h
  rw [Options.nonempty] at htext
  split at htext
  · cases htext
  · rename_i hne
    exact hne (Option.some.inj htext)

theorem output_set_ne {flag : Flag} {value : Option String} {after : Options}
    (h : options.set flag value = .ok after) (hne : options.output ≠ some "") :
    after.output ≠ some "" := by
  cases flag with
  | help | json => cases h
  | output =>
    cases h
    exact bind_nonempty_ne value
  | config | css | root =>
    cases h
    exact hne
  | logLevel =>
    cases value with
    | none =>
      cases h
      exact hne
    | some name =>
      rw [Options.set] at h
      split at h
      · cases h
        exact hne
      · cases h

/-- Setting options one after another keeps the path of the file to write to from being empty. -/
theorem output_takeAll_ne {extra : Bool} {arguments : List Argument} {after : Options}
    (hne : options.output ≠ some "") :
    options.takeAll extra arguments = .ok after → after.output ≠ some "" := by
  fun_induction Options.takeAll options extra arguments with
  | case1 | case5 | case6 | case7 | case9 | case10 => exact fun h => by cases h
  | case2 =>
    intro h
    cases h
    exact hne
  | case3 options extra flag hvalue text rest ih | case4 options extra flag hvalue text rest ih =>
    intro h
    obtain ⟨set, hset, hrest⟩ := bind_eq_ok.1 h
    exact ih set (output_set_ne hset hne) hrest
  | case8 options extra flag attached rest hvalue hattached hhelp ih => exact ih hne
  | case11 options extra rest ih | case12 options extra rest ih => exact ih hne
  | case13 options extra text rest ih => exact ih hne

/-- An empty path is as good as none: arguments never make it that of the file to write to. -/
theorem output_parse_ne {arguments : List String} (h : Options.parse arguments = .ok options) :
    options.output ≠ some "" := by
  rw [Options.parse] at h
  split at h
  · cases h
  · exact output_takeAll_ne (fun h => by cases h) h

/-! ### Ends of a run -/

section Ends

variable {log : List LogLine} {output : String} {css : Text} {outcome : Migration.Outcome}
  {code : Nat}

/-- A run without input changes and prints nothing. -/
theorem withoutInput_bare (failure : InputFailure) :
    (withoutInput disk failure).disk = disk ∧ (withoutInput disk failure).printed = [] := by
  rcases failure with root | root | _ | failure | (⟨obstacle, path⟩ | _ | _ | _)
  all_goals exact ⟨rfl, rfl⟩

theorem withoutInput_status {failure : InputFailure}
    (h : (withoutInput disk failure).ending = .status code) : code = 2 := by
  rcases failure with root | root | _ | failure | (⟨obstacle, path⟩ | _ | _ | _)
  case noConfig | noStylesheet | unreadable.obstacle => exact (Ending.status.inj h).symm
  all_goals cases h

/-- However writing ends, other files are kept and nothing is printed. -/
theorem written_kept :
    (written disk log output css).printed = [] ∧ ∀ location ≠ target disk output,
      (written disk log output css).disk.contents? location = disk.contents? location := by
  rw [written]
  split
  · exact ⟨rfl, fun _ _ => rfl⟩
  · rename_i after hwrite
    have hkept := (Disk.write_eq_ok hwrite).2
    split
    · exact ⟨rfl, hkept⟩
    · exact ⟨rfl, hkept⟩

/-- Writing that ends with a status leaves what was to be written in the file. -/
theorem written_status (h : (written disk log output css).ending = .status code) :
    code = 0 ∧ ∃ encoded, css.toUTF8? = some encoded ∧
      (written disk log output css).disk.contents? (target disk output) = some encoded := by
  rw [written] at h ⊢
  split at h
  · cases h
  · rename_i after hwrite
    have hput := (Disk.write_eq_ok hwrite).1
    cases hencoded : css.toUTF8? with
    | none =>
      rw [hencoded] at h
      cases h
    | some encoded =>
      rw [hencoded] at h hput
      exact ⟨(Ending.status.inj h).symm, encoded, rfl, hput⟩

/-- A migration whose result is to be written to a file ends like the writing. -/
theorem delivered_of_writes (hsucceeded : outcome.failure = none) (hjson : options.json = false)
    (houtput : options.output = some output) :
    delivered disk options log outcome = written disk log output outcome.css := by
  rw [delivered, hjson, hsucceeded, houtput]
  rfl

/-- A migration that failed, one that is to be reported in full and one whose result is not to be
written to a file change no file; the status says whether it succeeded. -/
theorem delivered_of_keeps (disk : Disk) (log : List LogLine)
    (h : outcome.failure ≠ none ∨ options.json = true ∨ options.output = none) :
    (delivered disk options log outcome).disk = disk ∧
      (delivered disk options log outcome).ending =
        .status (if outcome.failure.isSome then 1 else 0) := by
  by_cases hjson : options.json = true
  · simp [delivered, hjson]
  by_cases hfailed : outcome.failure.isSome = true
  · simp [delivered, hjson, hfailed]
  have houtput : options.output = none :=
    (h.resolve_left fun hne => hfailed (Option.isSome_iff_ne_none.2 hne)).resolve_left hjson
  simp [delivered, hjson, hfailed, houtput]

/-- A migration that failed prints nothing unless it is to be reported in full. -/
theorem delivered_silent (hfailed : outcome.failure ≠ none) (hjson : options.json = false) :
    (delivered disk options log outcome).printed = [] := by
  simp [delivered, hjson, Option.isSome_iff_ne_none.2 hfailed]

/-- Either no file is changed, or the result is written to one. -/
theorem keeps_or_writes (options : Options) (outcome : Migration.Outcome) :
    (outcome.failure ≠ none ∨ options.json = true ∨ options.output = none) ∨
      outcome.failure = none ∧ options.json = false ∧
        ∃ output, options.output = some output := by
  by_cases hfailed : outcome.failure = none
  · cases hjson : options.json with
    | true => exact .inl (.inr (.inl rfl))
    | false =>
      cases houtput : options.output with
      | none => exact .inl (.inr (.inr rfl))
      | some output => exact .inr ⟨hfailed, rfl, output, rfl⟩
  · exact .inl (.inl hfailed)

theorem contents?_delivered {location : Location}
    (h : ∀ output, options.output = some output → location ≠ target disk output) :
    (delivered disk options log outcome).disk.contents? location = disk.contents? location := by
  rcases keeps_or_writes options outcome with hkeeps | ⟨hsucceeded, hjson, output, houtput⟩
  · rw [(delivered_of_keeps disk log hkeeps).1]
  · rw [delivered_of_writes hsucceeded hjson houtput]
    exact written_kept.2 location (h output houtput)

end Ends

/-! ### Runs -/

/-- What a run of the command leaves of the run with its options, but for what is logged. -/
theorem run_of_parse (lib : Css.Library) (disk : Disk) {arguments : List String}
    (h : Options.parse arguments = .ok options) :
    options.logLevel = none ∧ run lib disk arguments = .bare .noValue disk ∨
      (run lib disk arguments).ending = (runWith lib disk options).ending ∧
      (run lib disk arguments).printed = (runWith lib disk options).printed ∧
      (run lib disk arguments).disk = (runWith lib disk options).disk := by
  rw [run, h]
  cases hlevel : options.logLevel with
  | none => exact .inl ⟨rfl, by simp only [hlevel]⟩
  | some level => exact .inr (by simp only [hlevel, and_self])

/-- **No run changes another file.**  Whatever a run ends with, all files but the one that the
result is to be written to are as they were. -/
theorem contents?_run_of_ne {arguments : List String}
    (hparse : Options.parse arguments = .ok options) {location : Location}
    (h : ∀ output, options.output = some output → location ≠ target disk output) :
    (run lib disk arguments).disk.contents? location = disk.contents? location := by
  rcases run_of_parse lib disk hparse with ⟨-, hnothing⟩ | ⟨-, -, hdisk⟩
  · rw [hnothing]
    rfl
  rw [hdisk, runWith]
  split
  · rw [(withoutInput_bare _).1]
  · dsimp only
    split
    · exact contents?_delivered h
    · rfl

/-- What holds of a run with some options that ended with a status. -/
structure Accounted (lib : Css.Library) (disk : Disk) (options : Options) (code : Nat)
    (result : Result) : Prop where
  /-- Only the file to write to is changed or made, and only by a run that succeeded and has no
  report to print. -/
  kept : ∀ location, result.disk.contents? location ≠ disk.contents? location →
    code = 0 ∧ options.json = false ∧
      ∃ output, WritesTo options output ∧ location = target disk output
  /-- That file then holds the stylesheet that the two texts give, which were read before. -/
  written : ∀ output, WritesTo options output → options.json = false → code = 0 →
    ∃ config css outcome encoded, ReadsInput disk options config css ∧
      Migration.convert lib config css = .ok outcome ∧ outcome.css.toUTF8? = some encoded ∧
      result.disk.contents? (target disk output) = some encoded
  /-- The status is 1 if both files were read and the migration failed. -/
  failed : code = 1 ↔ ∃ config css outcome, ReadsInput disk options config css ∧
    Migration.convert lib config css = .ok outcome ∧ outcome.failure ≠ none
  /-- The status is 2 if one of the files was not found or could not be read. -/
  refused : code = 2 ↔
    (∀ config, ¬ ReadsConfig disk options config) ∨ ∀ css, ¬ ReadsStylesheet disk options css
  /-- There is no other status than these two for a run that did not succeed. -/
  otherwise : code ≠ 1 → code ≠ 2 → code = 0
  /-- Nothing is printed without input, after a failure without a report, and beside a file. -/
  silent : code = 2 ∨ (code = 1 ∧ options.json = false) ∨
    (code = 0 ∧ options.json = false ∧ ∃ output, WritesTo options output) → result.printed = []

/-- A run that read both files and ended with the status of the migration is accounted for by what
it changed and printed. -/
theorem accounted_of_reads {code : Nat} {result : Result} {config css : Text}
    {outcome : Migration.Outcome} (hreads : ReadsInput disk options config css)
    (hmigrates : Migration.convert lib config css = .ok outcome)
    (hcode : code = if outcome.failure.isSome then 1 else 0)
    (hkept : ∀ location, result.disk.contents? location ≠ disk.contents? location →
      code = 0 ∧ options.json = false ∧
        ∃ output, WritesTo options output ∧ location = target disk output)
    (hwritten : ∀ output, WritesTo options output → options.json = false → code = 0 →
      ∃ encoded, outcome.css.toUTF8? = some encoded ∧
        result.disk.contents? (target disk output) = some encoded)
    (hsilent : (code = 1 ∧ options.json = false) ∨
      (code = 0 ∧ options.json = false ∧ ∃ output, WritesTo options output) →
        result.printed = []) : Accounted lib disk options code result := by
  have hstatus : code = 1 ∧ outcome.failure ≠ none ∨ code = 0 ∧ outcome.failure = none := by
    cases hfailure : outcome.failure with
    | none => exact .inr ⟨by rw [hcode, hfailure]; rfl, rfl⟩
    | some failure => exact .inl ⟨by rw [hcode, hfailure]; rfl, fun h => by cases h⟩
  exact {
    kept := hkept
    written := by
      intro output houtput hjson hzero
      obtain ⟨encoded, hencoded, hcontents⟩ := hwritten output houtput hjson hzero
      exact ⟨config, css, outcome, encoded, hreads, hmigrates, hencoded, hcontents⟩
    failed := by
      constructor
      · rintro rfl
        rcases hstatus with ⟨-, hfailed⟩ | ⟨h, -⟩
        · exact ⟨config, css, outcome, hreads, hmigrates, hfailed⟩
        · cases h
      · rintro ⟨config', css', outcome', hreads', hmigrates', hfailed⟩
        obtain ⟨rfl, rfl⟩ := hreads.unique hreads'
        obtain rfl := Except.ok.inj (hmigrates.symm.trans hmigrates')
        exact (hstatus.resolve_right fun h => hfailed h.2).1
    refused := by
      constructor
      · rintro rfl
        rcases hstatus with ⟨h, -⟩ | ⟨h, -⟩
        · cases h
        · cases h
      · rintro (hconfig | hcss)
        · exact absurd hreads.1 (hconfig config)
        · exact absurd hreads.2 (hcss css)
    otherwise := fun hone _ => (hstatus.resolve_left fun h => hone h.1).1
    silent := by
      rintro (rfl | h)
      · rcases hstatus with ⟨h, -⟩ | ⟨h, -⟩
        · cases h
        · cases h
      · exact hsilent h }

/-- A run that did not read both files ends with the status 2 and leaves everything as it was. -/
theorem accounted_of_not_reads {failure : InputFailure}
    (h : ∀ config css, ¬ ReadsInput disk options config css) :
    Accounted lib disk options 2 (withoutInput disk failure) where
  kept location hne := by
    rw [(withoutInput_bare failure).1] at hne
    exact absurd rfl hne
  written _ _ _ hzero := by cases hzero
  failed := by
    constructor
    · intro hone
      cases hone
    · rintro ⟨config, css, outcome, hreads, -⟩
      exact absurd hreads (h config css)
  refused := by
    refine ⟨fun _ => ?_, fun _ => rfl⟩
    by_contra hboth
    rw [not_or, not_forall_not, not_forall_not] at hboth
    obtain ⟨⟨config, hconfig⟩, css, hcss⟩ := hboth
    exact h config css ⟨hconfig, hcss⟩
  otherwise _ hne := absurd rfl hne
  silent _ := (withoutInput_bare failure).2

/-- A run that read both files and is not to write one is accounted for. -/
theorem delivered_accounted_of_keeps {log : List LogLine} {code : Nat} {config css : Text}
    {outcome : Migration.Outcome} (hreads : ReadsInput disk options config css)
    (hmigrates : Migration.convert lib config css = .ok outcome)
    (hkeeps : outcome.failure ≠ none ∨ options.json = true ∨ options.output = none)
    (h : (delivered disk options log outcome).ending = .status code) :
    Accounted lib disk options code (delivered disk options log outcome) := by
  obtain ⟨hdisk, hending⟩ := delivered_of_keeps disk log hkeeps
  have hcode := Ending.status.inj (h.symm.trans hending)
  have hnot (output : String) (houtput : WritesTo options output)
      (hjson : options.json = false) (hzero : code = 0) : False := by
    rcases hkeeps with hfailed | hreport | hnone
    · rw [hcode, if_pos (Option.isSome_iff_ne_none.2 hfailed)] at hzero
      cases hzero
    · cases hjson.symm.trans hreport
    · cases houtput.1.symm.trans hnone
  refine accounted_of_reads hreads hmigrates hcode (fun location hchanged => ?_)
    (fun output houtput hjson hzero => (hnot output houtput hjson hzero).elim) ?_
  · exact absurd (congrArg (Disk.contents? · location) hdisk) hchanged
  · rintro (⟨hone, hjson⟩ | ⟨hzero, hjson, output, houtput⟩)
    · refine delivered_silent (fun hsucceeded => ?_) hjson
      rw [hcode, hsucceeded] at hone
      cases hone
    · exact (hnot output houtput hjson hzero).elim

/-- A run that read both files and is to write one that has a path is accounted for. -/
theorem written_accounted {log : List LogLine} {code : Nat} {config css : Text} {output : String}
    {outcome : Migration.Outcome} (hreads : ReadsInput disk options config css)
    (hmigrates : Migration.convert lib config css = .ok outcome)
    (hsucceeded : outcome.failure = none) (hjson : options.json = false)
    (houtput : WritesTo options output)
    (h : (written disk log output outcome.css).ending = .status code) :
    Accounted lib disk options code (written disk log output outcome.css) := by
  obtain ⟨rfl, encoded, hencoded, hcontents⟩ := written_status h
  refine accounted_of_reads hreads hmigrates (by rw [hsucceeded]; rfl) (fun location hchanged => ?_)
    (fun other hother _ _ => ?_) (fun _ => written_kept.1)
  · refine ⟨rfl, hjson, output, houtput, ?_⟩
    by_contra hother
    exact hchanged (written_kept.2 location hother)
  · obtain rfl := Option.some.inj (houtput.1.symm.trans hother.1)
    exact ⟨encoded, hencoded, hcontents⟩

theorem runWith_accounted {code : Nat} (hne : options.output ≠ some "")
    (h : (runWith lib disk options).ending = .status code) :
    Accounted lib disk options code (runWith lib disk options) := by
  by_cases hreads : ∃ config css, ReadsInput disk options config css
  · obtain ⟨config, css, hreads⟩ := hreads
    cases hmigrates : Migration.convert lib config css with
    | error interruption =>
      obtain ⟨log, hrun⟩ := runWith_of_interrupted hreads hmigrates
      rw [hrun] at h
      cases h
    | ok outcome =>
      obtain ⟨log, hrun⟩ := runWith_of_migrates hreads hmigrates
      rw [hrun] at h ⊢
      rcases keeps_or_writes options outcome with hkeeps | ⟨hsucceeded, hjson, output, houtput⟩
      · exact delivered_accounted_of_keeps hreads hmigrates hkeeps h
      · rw [delivered_of_writes hsucceeded hjson houtput] at h ⊢
        exact written_accounted hreads hmigrates hsucceeded hjson
          ⟨houtput, fun hnil => hne (hnil ▸ houtput)⟩ h
  · simp only [not_exists] at hreads
    obtain ⟨failure, hrun⟩ := runWith_of_not_reads hreads
    rw [hrun] at h ⊢
    obtain rfl := withoutInput_status h
    exact accounted_of_not_reads hreads

/-- **A run of the command is accounted for.**  Of a run that ends with a status it is known from
the options, the tree before it and the migration of what it read which file it changes, what that
file holds then, which status it is, and when nothing is printed. -/
theorem run_accounted {arguments : List String} {code : Nat}
    (hparse : Options.parse arguments = .ok options)
    (hstatus : (run lib disk arguments).ending = .status code) :
    Accounted lib disk options code (run lib disk arguments) := by
  rcases run_of_parse lib disk hparse with ⟨-, hnothing⟩ | ⟨hending, hprinted, hdisk⟩
  · rw [hnothing] at hstatus
    cases hstatus
  · have h := runWith_accounted (output_parse_ne hparse) (hending.symm.trans hstatus)
    exact {
      kept := by rw [hdisk]; exact h.kept
      written := by rw [hdisk]; exact h.written
      failed := h.failed
      refused := h.refused
      otherwise := h.otherwise
      silent := by rw [hprinted]; exact h.silent }

/-- A folder with a configuration and a stylesheet. -/
def projectTree : Disk :=
  .ofFiles ["project"] [] [
    (["project", "tailwind.config.js"], "export default \x7b\x7d satisfies Config".toUTF8),
    (["project", "app.css"], "@tailwind base;".toUTF8)]

/-- The stylesheet that is found is written over, after it was read. -/
theorem run_accounted_written_over :
    Options.parse ["-o", "./app.css"] = .ok { Options.default with output := some "./app.css" } ∧
      (run Css.library projectTree ["-o", "./app.css"]).ending = .status 0 ∧
      Accounted Css.library projectTree { Options.default with output := some "./app.css" } 0
        (run Css.library projectTree ["-o", "./app.css"]) ∧
      (run Css.library projectTree ["-o", "./app.css"]).disk.contents? ["project", "app.css"] =
        some "/* Import Tailwind */\n@import \"tailwindcss\";\n".toUTF8 := by
  have hparse : Options.parse ["-o", "./app.css"] =
      .ok { Options.default with output := some "./app.css" } := by decide +kernel
  have hstatus : (run Css.library projectTree ["-o", "./app.css"]).ending = .status 0 := by decide +kernel
  exact ⟨hparse, hstatus, run_accounted hparse hstatus, by decide +kernel⟩

/-- An empty path after the option for the file to write to is none, so the stylesheet is printed
although the option is given. -/
theorem printed_for_empty_path :
    classifyAll ["-o", ""] = [.flag .output none, .value ""] ∧
      (Options.parse ["-o", ""]).map (·.json) = .ok false ∧
      (run Css.library projectTree ["-o", ""]).ending = .status 0 ∧
      (run Css.library projectTree ["-o", ""]).printed ≠ [] := by
  exact ⟨by decide +kernel, by decide +kernel, by decide +kernel, by decide +kernel⟩

end TailwindUpgrade.Cli
