import TestTriage.Proofs.Bundling
import TestTriage.Proofs.Halting
import TestTriage.Proofs.Merging
import TestTriage.Proofs.Rescan
import TestTriage.Triage

/-!
# No failing test is lost or doubled

A run that keeps going accounts for every failing test of the feed. The
tests pass through four tables: the index sorts them by reported file,
the merge joins the slots of one real file, every resolved slot is
processed, and a processed slot yields a bundle for each of its tests.
`run_accounts` says that the bundles, together with the entries of the
index whose slot came to nothing, tell of the failures that can be
located, each of them as often as the feed does.

The sorting and the merge lose nothing by `flatMap_firsts_perm`. What is
left is to see which entries a failed outcome stands for: those found at
its path, and it is the only outcome with that path.
-/

namespace TestTriage

open Grouping Merge

/-- The failing test that a bundle is about. -/
def Bundle.failure (b : Bundle) : FailingTest := ⟨b.fullTestName, b.testError⟩

namespace Correlator

/-- The fail markers whose test has an output that names a file. -/
def locatableMarkers (c : Correlator) (events : List Event) : List Event :=
  events.filter fun m =>
    (m.tag = "fail" ∧ m.test ≠ "")
      ∧ events.any fun e => e.test = m.test ∧ c.mark <:+: e.output.toList

/-- The failing test that a marker tells of. -/
def failureOf (events : List Event) (marker : Event) : FailingTest :=
  ⟨marker.test, (rescanMessage? events marker.test).getD ""⟩

theorem rescanFile_isSome (c : Correlator) (events : List Event) (test : String) :
    (c.rescanFile events test).isSome
      = events.any fun e => e.test = test ∧ c.mark <:+: e.output.toList := by
  rw [rescanFile, Option.isSome_map, firstTelling, Bool.eq_iff_iff, List.find?_isSome,
    List.any_eq_true]

theorem filterMap_map_eq_map_filter {α β γ : Type} (o : α → Option β) (f : α → γ)
    (xs : List α) :
    (xs.filterMap fun x => (o x).map fun _ => f x) = (xs.filter fun x => (o x).isSome).map f := by
  induction xs with
  | nil => rfl
  | cons x xs ih => cases hx : o x <;> simp [hx, ih]

theorem map_rescan (c : Correlator) (events : List Event) :
    (c.rescan events).map (·.2) = (c.locatableMarkers events).map (failureOf events) := by
  have hfailures : (c.rescan events).map (·.2)
      = (events.filter fun e => e.tag = "fail" ∧ e.test ≠ "").filterMap fun m =>
          (c.rescanFile events m.test).map fun _ => failureOf events m := by
    rw [rescan, List.map_filterMap]
    simp only [Option.map_map]
    rfl
  rw [hfailures, filterMap_map_eq_map_filter, List.filter_filter, locatableMarkers]
  refine congrArg (List.map _) (List.filter_congr fun m _ => ?_)
  rw [rescanFile_isSome, Bool.decide_and (m.tag = "fail" ∧ m.test ≠ ""), Bool.and_comm,
    Bool.decide_eq_true]

/-- The index holds the failures that can be located. -/
theorem flatMap_tests_perm (c : Correlator) (events : List Event) :
    ((c.correlate events).slots.flatMap (·.tests)).Perm
      ((c.locatableMarkers events).map (failureOf events)) := by
  have hgroups := flatMap_firsts_perm FailureIndex.fileKey (c.rescan events)
  simp only [FailureIndex.alike_fileKey] at hgroups
  rw [slots_correlate, ← map_rescan, byFile, List.flatMap_map,
    ← List.map_flatMap]
  simpa [FailureIndex.fileKey] using hgroups.map (·.2)

end Correlator

namespace Triage

/-! ## What comes out for a slot -/

variable {g : Triage} {t : FileTree}

/-- A file that is processed yields a bundle for each of its tests. -/
theorem map_failure_of_processFile {p : Path} {tests : List FailingTest} {bs : List Bundle}
    (h : g.processFile t p tests = .ok bs) : bs.map Bundle.failure = tests := by
  obtain ⟨testFile, implementation, -, -, rfl⟩ := processFile_eq_ok.mp h
  rw [List.map_map]
  exact List.map_id' tests

/-- What comes out for a slot and all that are found at the same file. -/
def outcomeOf (g : Triage) (t : FileTree) (s : FileFailures) (group : List FileFailures) :
    FileOutcome :=
  g.process t (mergedSlot (g.locator.locate t) s group)

theorem outcomeOf_of_error {s : FileFailures} {problem : Problem}
    (h : g.locator.locate t s.path = .error problem) (group : List FileFailures) :
    g.outcomeOf t s group = ⟨s.path, none, .error problem⟩ := by
  rw [outcomeOf, process, mergedSlot, h]; rfl

theorem outcomeOf_of_ok {s : FileFailures} {p : Path} (h : g.locator.locate t s.path = .ok p)
    (group : List FileFailures) :
    g.outcomeOf t s group
      = ⟨s.path, some p, g.processFile t p (group.flatMap (·.tests))⟩ := by
  rw [outcomeOf, process, mergedSlot, h]; rfl

/-- The bundles of a slot tell of all its tests, if it came to anything. -/
theorem bundles_outcomeOf (s : FileFailures) (group : List FileFailures) :
    (g.outcomeOf t s group).bundles.map Bundle.failure
      = if (g.outcomeOf t s group).isOk then group.flatMap (·.tests) else [] := by
  cases h : g.locator.locate t s.path with
  | error problem => rw [outcomeOf_of_error h]; rfl
  | ok p =>
      rw [outcomeOf_of_ok h, FileOutcome.bundles, FileOutcome.isOk]
      cases hbundles : g.processFile t p (group.flatMap (·.tests)) with
      | error problem => rfl
      | ok bs => exact map_failure_of_processFile hbundles

/-- The slots of an index that are found at the file of this one. -/
def groupOf (g : Triage) (t : FileTree) (index : FailureIndex) (s : FileFailures) :
    List FileFailures :=
  index.slots.filter (alike (locatedKey (g.locator.locate t)) s)

theorem run_eq (hg : g.keepGoing = true) (index : FailureIndex) :
    g.run t index
      = (firsts (locatedKey (g.locator.locate t)) index.slots).map fun s =>
          g.outcomeOf t s (g.groupOf t index s) := by
  rw [run, runResolved_of_keepGoing hg, resolve, FailureIndex.resolveEach_eq, List.map_map]
  rfl

/-! ## Entries that came to nothing -/

/-- Did an entry of the index come to nothing? Its file was not found, or a
failed outcome stands for the file. -/
def entryFailed (g : Triage) (t : FileTree) (outcomes : List FileOutcome)
    (entry : FileFailures) : Bool :=
  match g.locator.locate t entry.path with
  | .error _ => true
  | .ok p => outcomes.any fun o => !o.isOk && o.path.any (·.same p)

theorem entryFailed_congr {outcomes : List FileOutcome} {s s' : FileFailures}
    (h : alike (locatedKey (g.locator.locate t)) s s' = true) :
    g.entryFailed t outcomes s = g.entryFailed t outcomes s' := by
  obtain ⟨p, p', hp, hp', hsame⟩ := alike_locatedKey_iff.mp h
  simp only [entryFailed, hp, hp', Path.same, eq_of_beq hsame]

/-- The outcome of a first slot, and no other, tells whether it failed. -/
theorem entryFailed_of_mem_firsts (hg : g.keepGoing = true) (index : FailureIndex)
    {s : FileFailures} (hs : s ∈ firsts (locatedKey (g.locator.locate t)) index.slots) :
    g.entryFailed t (g.run t index) s = !(g.outcomeOf t s (g.groupOf t index s)).isOk := by
  cases h : g.locator.locate t s.path with
  | error problem => rw [entryFailed, h, outcomeOf_of_error h]; rfl
  | ok p =>
      rw [entryFailed, h, Bool.eq_iff_iff, List.any_eq_true, run_eq hg]
      constructor
      · rintro ⟨o, ho, hfail⟩
        obtain ⟨s', hs', rfl⟩ := List.mem_map.mp ho
        obtain ⟨hfail, hpath⟩ := Bool.and_eq_true_iff.mp hfail
        suffices heq : s' = s by rwa [heq] at hfail
        cases h' : g.locator.locate t s'.path with
        | error problem => rw [outcomeOf_of_error h'] at hpath; simp at hpath
        | ok p' =>
            rw [outcomeOf_of_ok h'] at hpath
            have hparts : p'.parts = p.parts := by simpa [Path.same] using hpath
            refine eq_of_alike_firsts hs' hs (alike_iff.mpr ⟨p.parts, ?_, locatedKey_ok h⟩)
            rw [locatedKey_ok h', hparts]
      · intro hfail
        refine ⟨_, List.mem_map_of_mem hs, ?_⟩
        rw [hfail, outcomeOf_of_ok h]
        simp [Path.same]

/-! ## The account of a run -/

theorem flatMap_ite_nil {α β : Type} (p : α → Bool) (f : α → List β) (xs : List α) :
    (xs.flatMap fun x => if p x then f x else []) = (xs.filter p).flatMap f := by
  induction xs with
  | nil => rfl
  | cons x xs ih => by_cases hx : p x <;> simp [hx, ih]

/-- The bundles of a run tell of the tests of all entries that came to something. -/
theorem map_failure_run_perm (hg : g.keepGoing = true) (index : FailureIndex) :
    (((g.run t index).flatMap (·.bundles)).map Bundle.failure).Perm
      ((index.slots.filter (!g.entryFailed t (g.run t index) ·)).flatMap (·.tests)) := by
  have hslot : ∀ s ∈ firsts (locatedKey (g.locator.locate t)) index.slots,
      (g.outcomeOf t s (g.groupOf t index s)).bundles.map Bundle.failure
        = if !g.entryFailed t (g.run t index) s then (g.groupOf t index s).flatMap (·.tests)
          else [] := by
    intro s hs
    rw [bundles_outcomeOf, entryFailed_of_mem_firsts hg index hs, Bool.not_not]
  have hbundles : ((g.run t index).flatMap (·.bundles)).map Bundle.failure
      = (((firsts (locatedKey (g.locator.locate t)) index.slots).filter
          (!g.entryFailed t (g.run t index) ·)).flatMap (g.groupOf t index)).flatMap
            (·.tests) := by
    rw [List.map_flatMap, List.flatMap_assoc, ← flatMap_ite_nil, ← List.flatMap_congr hslot,
      run_eq hg, List.flatMap_map]
  -- an entry without a key has failed
  have hkeyed : ∀ s, ((locatedKey (g.locator.locate t) s).isSome
      && !g.entryFailed t (g.run t index) s) = !g.entryFailed t (g.run t index) s := by
    intro s
    cases h : g.locator.locate t s.path with
    | error problem => simp [entryFailed, h]
    | ok p => rw [locatedKey_ok h]; rfl
  have hgroups := flatMap_filter_firsts_perm (locatedKey (g.locator.locate t))
    (p := (!g.entryFailed t (g.run t index) ·))
    (fun x y hxy => by rw [entryFailed_congr hxy]) index.slots
  simp only [hkeyed] at hgroups
  rw [hbundles]
  exact hgroups.flatMap_right _

theorem entryFailed_of_all_ok (hg : g.keepGoing = true) {index : FailureIndex}
    (hok : ∀ o ∈ g.run t index, o.isOk) {s : FileFailures} (hs : s ∈ index.slots) :
    g.entryFailed t (g.run t index) s = false := by
  cases h : g.locator.locate t s.path with
  | error problem =>
      -- without a key the entry has an outcome of its own
      have hfirst := mem_firsts_of_keyless (locatedKey_error h) hs
      rw [entryFailed_of_mem_firsts hg index hfirst, hok, Bool.not_true]
      rw [run_eq hg]
      exact List.mem_map_of_mem hfirst
  | ok p =>
      rw [entryFailed, h, List.any_eq_false]
      exact fun o ho => by simp [hok o ho]

/-- **No failing test is lost or doubled.** A run that keeps going has an outcome
for every resolved slot. Its bundles tell, together with the entries that came
to nothing, of the failures that can be located, each as often as there are
markers of it; so if all went well there is a bundle for every such marker. -/
theorem run_accounts (hg : g.keepGoing = true) (t : FileTree) (c : Correlator)
    (events : List Event) :
    let index := c.correlate events
    let outcomes := g.run t index
    let bundles := outcomes.flatMap (·.bundles)
    let failed := index.slots.filter (g.entryFailed t outcomes)
    outcomes.map (·.file) = (g.resolve t index).map (·.reported)
      ∧ (bundles.map Bundle.failure ++ failed.flatMap (·.tests)).Perm
          ((c.locatableMarkers events).map (Correlator.failureOf events))
      ∧ ((∀ o ∈ outcomes, o.isOk) →
          bundles.length = (c.locatableMarkers events).length) := by
  intro index outcomes bundles failed
  have hperm : (bundles.map Bundle.failure ++ failed.flatMap (·.tests)).Perm
      ((c.locatableMarkers events).map (Correlator.failureOf events)) := by
    refine .trans ?_ (c.flatMap_tests_perm events)
    refine ((map_failure_run_perm hg index).append_right _).trans ?_
    rw [← List.flatMap_append]
    refine List.Perm.flatMap_right _ (.trans List.perm_append_comm ?_)
    exact List.filter_append_perm _ index.slots
  refine ⟨?_, hperm, fun hok => ?_⟩
  · have hfile : ∀ s : ResolvedSlot, (g.process t s).file = s.reported := fun s => by
      cases h : s.located <;> simp [process, h]
    simp [outcomes, run, runResolved_of_keepGoing hg, hfile]
  · have hfailed : failed = [] := by
      simpa [failed] using fun s hs => entryFailed_of_all_ok hg hok hs
    simpa [hfailed] using hperm.length_eq

/-- A feed that tells of one file by two names. -/
def twoNames : List Event :=
  [⟨"output", "TestA", "    a_test.go:2: bad\n", "pkg"⟩, ⟨"fail", "TestA", "", "pkg"⟩,
   ⟨"output", "TestB", "    pkg/a_test.go:9: worse\n", "pkg"⟩, ⟨"fail", "TestB", "", "pkg"⟩]

/-- The file, and the one it tests. -/
def oneFile : FileTree :=
  ((FileTree.ofStart []).write ⟨"pkg/a_test.go"⟩ "package pkg\nfunc TestA() {}\n".toUTF8).write
    ⟨"pkg/a.go"⟩ "package pkg\n".toUTF8

theorem run_accounts_twoNames :
    let g : Triage := { locator := { root := ⟨"."⟩ }, keepGoing := true }
    let c : Correlator := {}
    ((g.run oneFile (c.correlate twoNames)).flatMap (·.bundles)).length
      = (c.locatableMarkers twoNames).length :=
  (run_accounts rfl oneFile {} twoNames).2.2 (by decide +kernel)

end Triage

end TestTriage
