import TestTriage.Proofs.Conservation
import TestTriage.Run

/-!
# What a run prints

How a run ends depends on how far it gets (`Ending`). Without settings or
without events it fails and prints nothing. Without a failure that can be
located it has nothing to do, whatever the tree holds. Else every slot
comes to something or fails: what is printed are the bundles of the slots
that come to something, up to the first failure unless the run keeps going,
and all goes well just if no slot fails.

`run_ends` says so of every run. The two kinds of halting, at the slots and
at the outcomes, print the same since a failed outcome has no bundles, and
an outcome is cut away only behind a failed one.
-/

namespace TestTriage

open Text (Bytes)

/-! ## Endings -/

/-- The bytes of the feed that a run is given, if they can be had. -/
def Surroundings.feed? (s : Surroundings) (o : CommandLine.Options) : Option Bytes :=
  match o.input with
  | none => some s.input.data.toList
  | some p => (s.tree.read p).toOption.map (·.data.toList)

/-- The settings in the files that a run looks for them in. -/
def Surroundings.settings (s : Surroundings) (o : CommandLine.Options) : Except Problem Settings :=
  Settings.load s.tree s.userSettings (o.root.getD ⟨"."⟩) o.config

namespace Triage

/-- What comes out for each slot of a feed, whatever comes out for the others. -/
def outcomes (g : Triage) (t : FileTree) (events : List Event) : List FileOutcome :=
  (g.resolve t (Correlator.correlate {} events)).map (g.process t)

/-- The outcomes that came to something, unless the run keeps going those in front
of the first that failed. -/
def successes (g : Triage) (all : List FileOutcome) : List FileOutcome :=
  if g.keepGoing then all.filter (·.isOk) else all.takeWhile (·.isOk)

end Triage

/-- How a run ends, by how far it gets. -/
inductive Ending (s : Surroundings) (o : CommandLine.Options) (r : Report) : Prop where
  | unsettled {problem : Problem} (hsettings : s.settings o = .error problem)
      (hexit : r.exitCode ≠ 0) (hout : r.output = "")
  | unfed {loaded : Settings} (hsettings : s.settings o = .ok loaded) (hfeed : s.feed? o = none)
      (hexit : r.exitCode ≠ 0) (hout : r.output = "")
  | malformed {loaded : Settings} {feed : Bytes} {problem : Problem}
      (hsettings : s.settings o = .ok loaded) (hfeed : s.feed? o = some feed)
      (hevents : Feed.events feed = .error problem) (hexit : r.exitCode ≠ 0) (hout : r.output = "")
  | idle {loaded : Settings} {feed : Bytes} {events : List Event}
      (hsettings : s.settings o = .ok loaded) (hfeed : s.feed? o = some feed)
      (hevents : Feed.events feed = .ok events)
      (hnone : Correlator.locatableMarkers {} events = []) (hexit : r.exitCode = 0)
      (hout : r.output = "")
  | printed {loaded settings : Settings} {g : Triage} {feed : Bytes} {events : List Event}
      (hsettings : s.settings o = .ok loaded) (hfeed : s.feed? o = some feed)
      (hevents : Feed.events feed = .ok events)
      (hsome : Correlator.locatableMarkers {} events ≠ [])
      (happly : settings = o.layer.apply loaded)
      (htriage : g = settings.triage (o.root.getD ⟨"."⟩))
      (hout : r.output = String.join
        (((g.successes (g.outcomes s.tree events)).flatMap (·.bundles)).map settings.format.render))
      (hexit : r.exitCode = 0 ↔ ∀ outcome ∈ g.outcomes s.tree events, outcome.isOk = true)

/-! ## Outcomes -/

theorem FileOutcome.bundles_of_not_isOk {o : FileOutcome} (h : o.isOk = false) :
    o.bundles = [] := by
  rw [isOk] at h
  rw [bundles]
  cases hresult : o.result with
  | ok bs => rw [hresult] at h; cases h
  | error p => rfl

namespace Triage

theorem flatMap_bundles_filter (os : List FileOutcome) :
    (os.filter (·.isOk)).flatMap (·.bundles) = os.flatMap (·.bundles) := by
  induction os with
  | nil => rfl
  | cons o os ih =>
      rw [List.filter_cons, List.flatMap_cons]
      cases h : o.isOk with
      | true => rw [if_pos rfl, List.flatMap_cons, ih]
      | false =>
          rw [if_neg Bool.false_ne_true, ih, FileOutcome.bundles_of_not_isOk h, List.nil_append]

theorem flatMap_bundles_untilFailure (os : List FileOutcome) :
    (untilFailure os).flatMap (·.bundles) = (os.takeWhile (·.isOk)).flatMap (·.bundles) := by
  induction os with
  | nil => rfl
  | cons o os ih =>
      rw [untilFailure, List.takeWhile_cons]
      cases h : o.isOk with
      | true => rw [if_pos rfl, if_pos rfl, List.flatMap_cons, List.flatMap_cons, ih]
      | false =>
          rw [if_neg Bool.false_ne_true, if_neg Bool.false_ne_true, List.flatMap_singleton,
            FileOutcome.bundles_of_not_isOk h]
          rfl

theorem all_isOk_untilFailure (os : List FileOutcome) :
    (∀ o ∈ untilFailure os, o.isOk = true) ↔ ∀ o ∈ os, o.isOk = true := by
  induction os with
  | nil => exact Iff.rfl
  | cons o os ih =>
      rw [untilFailure]
      cases h : o.isOk with
      | true => simp [h, ih]
      | false => simp [h]

variable (g : Triage) (t : FileTree) (slots : List ResolvedSlot)

theorem flatMap_bundles_runResolved :
    (g.runResolved t slots).flatMap (·.bundles)
      = (g.successes (slots.map (g.process t))).flatMap (·.bundles) := by
  rw [runResolved_eq, successes, atOnce]
  cases g.keepGoing with
  | true => exact (flatMap_bundles_filter _).symm
  | false => exact flatMap_bundles_untilFailure _

/-- A run that halts early has failed already. -/
theorem all_isOk_runResolved :
    (∀ o ∈ g.runResolved t slots, o.isOk = true)
      ↔ ∀ o ∈ slots.map (g.process t), o.isOk = true := by
  rw [runResolved_eq, atOnce]
  cases g.keepGoing with
  | true => exact Iff.rfl
  | false => exact all_isOk_untilFailure _

end Triage

theorem failures_isEmpty (os : List FileOutcome) :
    (failures os).isEmpty = true ↔ ∀ o ∈ os, o.isOk = true := by
  rw [failures, List.isEmpty_iff, List.filterMap_eq_nil_iff]
  refine forall₂_congr fun o _ => ?_
  rw [FileOutcome.isOk]
  cases o.result <;> simp [Except.isOk, Except.toBool]

/-! ## The index and the feed -/

/-- The index is empty just if no failure can be located. -/
theorem isEmpty_correlate (c : Correlator) (events : List Event) :
    (c.correlate events).isEmpty = true ↔ c.locatableMarkers events = [] := by
  rw [FailureIndex.isEmpty, Correlator.slots_correlate, Correlator.byFile, List.isEmpty_iff,
    List.map_eq_nil_iff, Grouping.firsts_eq_nil, ← List.map_eq_nil_iff, c.map_rescan events,
    List.map_eq_nil_iff]

theorem readFeed_of_none {s : Surroundings} {o : CommandLine.Options} (h : s.feed? o = none) :
    ∃ failure, readFeed s o.input = .error failure := by
  rw [Surroundings.feed?] at h
  simp only [readFeed]
  cases hinput : o.input with
  | none => rw [hinput] at h; cases h
  | some p =>
      cases hread : s.tree.read p with
      | ok feed => simp [hinput, hread, Except.toOption] at h
      | error fault =>
          simp only [hread]
          cases fault <;> exact ⟨_, rfl⟩

theorem readFeed_of_some {s : Surroundings} {o : CommandLine.Options} {feed : Bytes}
    (h : s.feed? o = some feed) :
    readFeed s o.input = (Feed.events feed).mapError .problem := by
  rw [Surroundings.feed?] at h
  simp only [readFeed]
  cases hinput : o.input with
  | none => simp_all
  | some p =>
      cases hread : s.tree.read p with
      | ok content => simp_all [Except.toOption]
      | error fault => simp [hinput, hread, Except.toOption] at h

/-! ## Runs -/

theorem runIndex_exitCode (s : Surroundings) (settings : Settings) (root : Path)
    (index : FailureIndex) :
    let g := settings.triage root
    (runIndex s settings root index).exitCode = 0
      ↔ ∀ outcome ∈ (g.resolve s.tree index).map (g.process s.tree), outcome.isOk = true := by
  intro g
  rw [← g.all_isOk_runResolved, ← failures_isEmpty, runIndex]
  simp only [ite_eq_left_iff, Bool.not_eq_true, one_ne_zero, imp_false, Bool.not_eq_false]
  rfl

theorem runIndex_output (s : Surroundings) (settings : Settings) (root : Path)
    (index : FailureIndex) :
    let g := settings.triage root
    (runIndex s settings root index).output = String.join
      (((g.successes ((g.resolve s.tree index).map (g.process s.tree))).flatMap (·.bundles)).map
        settings.format.render) := by
  intro g
  rw [← g.flatMap_bundles_runResolved]
  rfl

theorem runOptions_ends (s : Surroundings) (o : CommandLine.Options) :
    Ending s o (runOptions s o) := by
  simp only [runOptions]
  cases hsettings : s.settings o with
  | error problem =>
      have hload := hsettings
      rw [Surroundings.settings] at hload
      rw [hload]
      exact .unsettled hsettings Nat.one_ne_zero rfl
  | ok loaded =>
      have hload := hsettings
      rw [Surroundings.settings] at hload
      rw [hload]
      cases hfeed : s.feed? o with
      | none =>
          obtain ⟨failure, hread⟩ := readFeed_of_none hfeed
          rw [hread]
          exact .unfed hsettings hfeed Nat.one_ne_zero rfl
      | some feed =>
          rw [readFeed_of_some hfeed]
          cases hevents : Feed.events feed with
          | error problem => exact .malformed hsettings hfeed hevents Nat.one_ne_zero rfl
          | ok events =>
              by_cases hnone : Correlator.locatableMarkers {} events = []
              · have hempty := (isEmpty_correlate {} events).mpr hnone
                simp only [Except.mapError, hempty, if_true]
                exact .idle hsettings hfeed hevents hnone rfl rfl
              · have hempty := mt (isEmpty_correlate {} events).mp hnone
                simp only [Except.mapError, hempty]
                exact .printed hsettings hfeed hevents hnone rfl rfl (runIndex_output _ _ _ _)
                  (runIndex_exitCode _ _ _ _)

/-- Every run that is asked for ends so. -/
theorem run_ends (s : Surroundings) {arguments : List String} {o : CommandLine.Options}
    (h : CommandLine.read arguments = .ok o) : Ending s o (run s arguments) := by
  rw [run, h]
  -- which log entries are kept is no matter
  cases runOptions_ends s o with
  | unsettled hsettings hexit hout => exact .unsettled hsettings hexit hout
  | unfed hsettings hfeed hexit hout => exact .unfed hsettings hfeed hexit hout
  | malformed hsettings hfeed hevents hexit hout =>
      exact .malformed hsettings hfeed hevents hexit hout
  | idle hsettings hfeed hevents hnone hexit hout =>
      exact .idle hsettings hfeed hevents hnone hexit hout
  | printed hsettings hfeed hevents hsome happly htriage hout hexit =>
      exact .printed hsettings hfeed hevents hsome happly htriage hout hexit

/-- A feed of two failing tests. -/
def twoFailures : String :=
  "\x7b\"Action\":\"output\",\"Test\":\"TestA\",\"Output\":\"a_test.go:2: bad\"\x7d\n"
    ++ "\x7b\"Action\":\"fail\",\"Test\":\"TestA\"\x7d\n"
    ++ "\x7b\"Action\":\"output\",\"Test\":\"TestB\",\"Output\":\"b_test.go:9: worse\"\x7d\n"
    ++ "\x7b\"Action\":\"fail\",\"Test\":\"TestB\"\x7d\n"

/-- The file of the second one is not there: the run fails, and the bundle of the
first one is printed all the same. -/
theorem run_ends_twoFailures :
    let s : Surroundings := ⟨Triage.oneFile, none, none, twoFailures.toUTF8⟩
    let o : CommandLine.Options := { format := some .summary, keepGoing := some true }
    let arguments := ["--keep-going", "--format", "summary"]
    CommandLine.read arguments = .ok o ∧ Ending s o (run s arguments)
      ∧ ((run s arguments).exitCode, (run s arguments).output)
        = (1, "./pkg/a_test.go\tTestA\t1 test decl(s)\t0 dependency decl(s)\tbad\n") :=
  ⟨by decide +kernel, run_ends _ (by decide +kernel), by decide +kernel⟩

end TestTriage
