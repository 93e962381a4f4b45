/-
TailwindUpgrade/Proofs/Config/History.lean

What a reader still knows of the requests before.  Reading a configuration field by field comes to
what `read` makes of its source at once (`readConfig_eq`), so nothing of the requests before is in
the answer, and nothing of them is kept but the bindings, where the source holds no configuration.
If a field is broken off there is no answer, but what the fields before it gave is kept; that is
from the source alone as well (`kept`), and if nothing is broken off it is the configuration itself
(`kept_of_read`).  A part is read under the bindings there are, and only its warnings are kept.

By induction on the requests, what is kept is settled by a few of them: the last configuration that
was asked for, the parts that were asked for since, and the last source that held a configuration
(`after_eq`).

Main result: whatever was asked of a reader before, a configuration is read as if it was the first,
but for bindings that a source without one leaves as they were (`after_requests`).
-/
import Mathlib.Data.List.DropRight
import TailwindUpgrade.Config.Reader
import TailwindUpgrade.Proofs.Config.Entries

namespace TailwindUpgrade.Config.Reader

/-! ### Field by field -/

/-- All fields are read under the bindings that there were before the first, and kept up to the one
that was broken off. -/
theorem readFields_eq (list : List (Text × Text)) (reader : Reader) :
    reader.readFields list =
      ((gather (field reader.bindings) list).value.fault,
        ⟨Record.setAll reader.config (gather (field reader.bindings) list).value.list,
          reader.warnings ++ (gather (field reader.bindings) list).notices.map Notice.message,
          reader.bindings⟩) := by
  induction list generalizing reader with
  | nil => simp [readFields, gather, Reported.silent, Record.setAll]
  | cons entry list ih =>
    obtain ⟨key, source⟩ := entry
    rw [readFields, readField, receive]
    cases hvalue : (field reader.bindings key source).value with
    | error fault =>
      rw [gather_cons_of_error hvalue]
      simp [Literal.Entries.stopped, Record.setAll]
    | ok given =>
      rw [gather_cons_of_ok hvalue]
      cases given with
      | none => simp [ih]
      | some value => simp [ih, Record.setAll]

/-- What is kept of the configuration of a source: the fields up to the first that was broken off,
with what was said about them, or nothing if the source holds no configuration. -/
def kept (source : Text) : Reported Notice (Record Value) :=
  match objectSource? source with
  | none => .silent []
  | some object =>
    ((properties "the config object" object).andThen
      (gather (field (Config.bindings source)))).map fun found => Record.ofList found.list

/-- A configuration that is not broken off is kept. -/
theorem kept_of_read {source : Text} {found : Attempt (Record Value)} (h : read source = .ok found) :
    (kept source).notices = found.notices ∧
      ∀ config, found.value = .ok config → (kept source).value = config := by
  rw [read] at h
  rw [kept]
  cases hobject : objectSource? source with
  | none =>
    rw [hobject] at h
    cases h
  | some object =>
    rw [hobject] at h
    obtain rfl := Except.ok.inj h
    exact ⟨rfl, fun config hconfig => (eq_ofList_of_settled hconfig).symm⟩

/-- **A configuration is read from its source alone.** Only the bindings of a reader outlast it,
and only where the source holds no configuration. -/
theorem readConfig_eq (reader : Reader) (source : Text) :
    reader.readConfig source =
      match read source with
      | .error failure => (.error (.noConfig failure), ⟨[], [], reader.bindings⟩)
      | .ok found =>
        (found.value.mapError .brokenOff,
          ⟨(kept source).value, (kept source).notices.map Notice.message,
            Config.bindings source⟩) := by
  rw [readConfig, read, kept]
  cases objectSource? source with
  | none => rfl
  | some object =>
    simp only [receive, List.nil_append, readFields_eq]
    rw [fields, entries, Reported.map, settled]
    simp only [Reported.map, Reported.andThen, List.map_append]
    cases (gather (field (Config.bindings source))
      (properties "the config object" object).value).value.fault with
    | none => rfl
    | some fault => rfl

/-! ### Requests -/

/-- What a part has to report, under the given bindings; the other requests are no parts. -/
def notices (bound : Record Text) : Request → List Notice
  | .part part source => (part.read bound source).notices
  | _ => []

/-- The source of a configuration that is asked for. -/
def configSource? : Request → Option Text
  | .config source => some source
  | _ => none

/-- The bindings of a source that is asked for its configuration, if it holds one. -/
def bindings? (request : Request) : Option (Record Text) :=
  (configSource? request).bind fun source =>
    (objectSource? source).map fun _ => Config.bindings source

/-- A reader after a number of requests. -/
def after (history : List Request) : Reader :=
  history.foldl (fun reader request => (reader.answer request).2) fresh

/-- The bindings of the last source that held a configuration. -/
def boundBy (history : List Request) : Record Text :=
  (history.reverse.findSome? bindings?).getD []

/-- What is kept of the last configuration that was asked for. -/
def lastRead (history : List Request) : Reported Notice (Record Value) :=
  (history.reverse.findSome? configSource?).elim (.silent []) kept

/-- The requests since the last one for a configuration. -/
def sinceConfig (history : List Request) : List Request :=
  history.rtakeWhile fun request => (configSource? request).isNone

/-- What requests leave behind in a reader that was asked for nothing before. -/
def left (history : List Request) : Reader where
  config := (lastRead history).value
  warnings :=
    ((lastRead history).notices ++
      (sinceConfig history).flatMap (notices (boundBy history))).map Notice.message
  bindings := boundBy history

/-! ### One request -/

/-- A request for no configuration leaves all but the warnings, to which it appends. -/
theorem answer_of_not_config {request : Request} (h : configSource? request = none)
    (reader : Reader) :
    (reader.answer request).2 =
      { reader with
        warnings := reader.warnings ++
          (notices reader.bindings request).map Notice.message } := by
  cases request with
  | config source => cases h
  | bindings source =>
    show reader = _
    simp [notices]
  | part part source => rfl

/-- A request for a configuration leaves what the source gives. -/
theorem answer_config (reader : Reader) (source : Text) :
    (reader.answer (.config source)).2 =
      ⟨(kept source).value, (kept source).notices.map Notice.message,
        (bindings? (.config source)).getD reader.bindings⟩ := by
  rw [answer, readConfig_eq, bindings?, configSource?, Option.bind_some, read, kept]
  cases objectSource? source with
  | none => rfl
  | some object => rfl

/-! ### All requests -/

theorem after_concat (history : List Request) (request : Request) :
    after (history ++ [request]) = ((after history).answer request).2 := by
  rw [after, after, List.foldl_append]
  rfl

theorem boundBy_concat (history : List Request) (request : Request) :
    boundBy (history ++ [request]) = (bindings? request).getD (boundBy history) := by
  rw [boundBy, boundBy, List.reverse_concat, List.findSome?_cons]
  cases bindings? request with
  | none => rfl
  | some bound => rfl

theorem lastRead_concat (history : List Request) (request : Request) :
    lastRead (history ++ [request]) =
      (configSource? request).elim (lastRead history) kept := by
  rw [lastRead, lastRead, List.reverse_concat, List.findSome?_cons]
  cases configSource? request with
  | none => rfl
  | some source => rfl

theorem sinceConfig_concat (history : List Request) (request : Request) :
    sinceConfig (history ++ [request]) =
      if (configSource? request).isNone then sinceConfig history ++ [request] else [] :=
  List.rtakeWhile_concat _ history request

/-- **What a reader keeps is settled by a few of the requests so far**: the last one for a
configuration, those for parts since, and the last source that held a configuration. -/
theorem after_eq (history : List Request) : after history = left history := by
  -- the induction is from the back, since each request extends what those before it left
  induction history using List.reverseRecOn with
  | nil => rfl
  | append_singleton history request ih =>
    have hleft := left.eq_1 (history ++ [request])
    rw [boundBy_concat, lastRead_concat, sinceConfig_concat] at hleft
    rw [after_concat, ih, hleft]
    cases hsource : configSource? request with
    | none =>
      have hbound : bindings? request = none := by
        rw [bindings?, hsource, Option.bind_none]
      rw [answer_of_not_config hsource, hbound]
      simp [left]
    | some source =>
      obtain rfl : request = .config source := by
        cases request with
        | config source => exact congrArg Request.config (Option.some.inj hsource)
        | bindings source => cases hsource
        | part part source => cases hsource
      rw [answer_config]
      simp [left]

/-! ### Nothing but bindings -/

/-- A reader whose answers, and what it keeps of them, depend on nothing that it keeps but its
bindings; and of these a reading of a configuration needs none. -/
structure Forgetful (reader : Reader) : Prop where
  /-- A configuration, or why there is none, is what a fresh reader would answer. -/
  config_answer (source : Text) :
    (reader.answer (.config source)).1 = (fresh.answer (.config source)).1
  /-- What is kept of a configuration is what a fresh reader would keep. -/
  config_ok (source : Text) (config : Value) :
    (reader.answer (.config source)).1 = .ok config →
      (reader.answer (.config source)).2 = (fresh.answer (.config source)).2
  /-- Where there is no configuration, nothing is kept, and the bindings are as they were. -/
  config_error (source : Text) (failure : Failure) :
    (reader.answer (.config source)).1 = .error (.noConfig failure) →
      (reader.answer (.config source)).2 = ⟨[], [], reader.bindings⟩
  /-- Of a configuration that was broken off there is kept what a fresh reader would keep. -/
  config_brokenOff (source : Text) (fault : Literal.Fault) :
    (reader.answer (.config source)).1 = .error (.brokenOff fault) →
      (reader.answer (.config source)).2 = (fresh.answer (.config source)).2
  /-- The bindings of a source are what a fresh reader would answer, and are not kept. -/
  bindings_answer (source : Text) :
    reader.answer (.bindings source) = ((fresh.answer (.bindings source)).1, reader)
  /-- A part is read to the same, or broken off by the same fault, with the same warnings behind those
  there are, by every reader of the same bindings, whatever its configuration and its warnings. -/
  part_answer (part : Part) (source : Text) :
    ∃ (result : Except Literal.Fault Value) (added : List Text),
      ∀ other : Reader, other.bindings = reader.bindings →
        other.answer (.part part source) =
          (result.mapError .brokenOff, { other with warnings := other.warnings ++ added })

theorem forgetful (reader : Reader) : Forgetful reader where
  config_answer source := by
    rw [answer, answer, readConfig_eq, readConfig_eq]
    cases read source with
    | error failure => rfl
    | ok found => rfl
  config_ok source config := by
    rw [answer, answer, readConfig_eq, readConfig_eq]
    cases read source with
    | error failure =>
      intro h
      cases h
    | ok found =>
      intro
      rfl
  config_error source failure := by
    rw [answer, readConfig_eq]
    cases read source with
    | error failure =>
      intro
      rfl
    | ok found =>
      intro h
      cases hvalue : found.value <;> simp [hvalue, Except.mapError, Except.map] at h
  config_brokenOff source fault := by
    rw [answer, answer, readConfig_eq, readConfig_eq]
    cases read source with
    | error failure =>
      intro h
      cases h
    | ok found =>
      intro
      rfl
  bindings_answer source := rfl
  part_answer part source := by
    let found := part.read reader.bindings source
    refine ⟨found.value, found.notices.map Notice.message, ?_⟩
    rintro ⟨config, warnings, bound⟩ hother
    obtain rfl : bound = reader.bindings := hother
    rfl

/-- **A reader carries nothing but bindings from one request to another.** After any requests,
whether they were answered or failed, it keeps what the last few of them left, and a configuration
is read, and kept, as if it was the first; a configuration that is given as data is one that is
given as its printed source. -/
theorem after_requests (history : List Request) :
    after history = left history ∧ Forgetful (after history) :=
  ⟨after_eq history, forgetful (after history)⟩

end TailwindUpgrade.Config.Reader
