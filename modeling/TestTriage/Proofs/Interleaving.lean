import Mathlib.Data.List.Infix
import Mathlib.Data.Multiset.Basic
import TestTriage.Proofs.Recording

/-!
# Events of several tests and packages

Tests that run side by side mix their events, and so do packages. What is
recorded for a fail marker is read off two events only, the first of its
test to name a file and the first to hold a message (`attributed?`), and both
are events of its own test. So it does not matter how the events of other
tests are mixed in (`correlate_interleaving`).

A test is known by its identity, and a package is no part of that. If two
packages have a test of one name, the first output wins, whichever package
it is of: the entry of a marker is what its own package alone would give
unless the other package tells of the test first (`entries_by_package`).
-/

namespace TestTriage

open Grouping

/-! ## Lists known by parts -/

/-- A list is a permutation of another if for every key both hold the same elements of
that key, in the same order. -/
theorem perm_of_filter_eq {α κ : Type} [DecidableEq α] [DecidableEq κ] (key : α → κ)
    {xs ys : List α} (h : ∀ k, xs.filter (key · = k) = ys.filter (key · = k)) : xs.Perm ys := by
  rw [List.perm_iff_count]
  intro a
  have hcount : ∀ zs : List α, zs.count a = (zs.filter (key · = key a)).count a := by
    intro zs
    rw [List.count_filter (by simp)]
  rw [hcount xs, hcount ys, h]

theorem filter_filterMap {α β : Type} {f : α → Option β} {p : β → Bool} {q : α → Bool}
    (h : ∀ x y, f x = some y → p y = q x) (xs : List α) :
    (xs.filterMap f).filter p = (xs.filter q).filterMap f := by
  induction xs with
  | nil => rfl
  | cons x xs ih =>
      cases hx : f x with
      | none => by_cases hq : q x <;> simp [hx, hq, ih]
      | some y =>
          have hpq := h x y hx
          by_cases hq : q x <;> simp [hx, hpq, hq, ih]

/-- The first element with a property is the first among some of the elements, unless
one of the others comes first. -/
theorem find?_filter_eq {α : Type} {p q : α → Bool} {xs : List α}
    (h : ∀ before x after, xs = before ++ x :: after → q x = true → p x = false →
      ∃ y ∈ before, p y = true ∧ q y = true) :
    (xs.filter p).find? q = xs.find? q := by
  rw [List.find?_filter]
  cases hfind : xs.find? q with
  | none =>
      rw [List.find?_eq_none] at hfind ⊢
      intro x hx
      simp [hfind x hx]
  | some x =>
      obtain ⟨hq, before, after, rfl, hbefore⟩ := List.find?_eq_some_iff_append.mp hfind
      have hp : p x = true := by
        by_contra hp
        obtain ⟨y, hy, -, hqy⟩ := h before x after rfl hq (by simpa using hp)
        simpa [hqy] using hbefore y hy
      refine List.find?_eq_some_iff_append.mpr ⟨by simp [hp, hq], before, after, rfl, ?_⟩
      intro y hy
      have hqy := hbefore y hy
      simp_all

namespace Correlator

variable {c : Correlator} {events events' : List Event} {mark : List Char}

/-! ## The entry of a marker -/

/-- The failure that a fail marker tells of, with its file, if that is known. -/
def attributed? (c : Correlator) (events : List Event) (marker : Event) :
    Option (Path × FailingTest) :=
  (c.rescanFile events marker.test).map fun file =>
    (⟨file⟩, ⟨marker.test, (rescanMessage? events marker.test).getD ""⟩)

theorem rescan_eq (c : Correlator) (events : List Event) :
    c.rescan events = (events.filter Event.isFailMarker).filterMap (c.attributed? events) := by
  have hmarkers : events.filter Event.isFailMarker
      = events.filter fun e => e.tag = "fail" ∧ e.test ≠ "" :=
    List.filter_congr fun e _ => by rw [Bool.eq_iff_iff, isFailMarker_iff, decide_eq_true_iff]
  rw [hmarkers]
  rfl

theorem fullName_of_attributed? {marker : Event} {x : Path × FailingTest}
    (h : c.attributed? events marker = some x) : x.2.fullName = marker.test := by
  obtain ⟨file, -, rfl⟩ := Option.map_eq_some_iff.mp h
  rfl

/-- What events tell first decides on the entry. -/
theorem attributed?_congr {marker : Event}
    (hfile : firstTelling c.mark marker.test events = firstTelling c.mark marker.test events')
    (hmessage : firstTelling [':', ' '] marker.test events
      = firstTelling [':', ' '] marker.test events') :
    c.attributed? events marker = c.attributed? events' marker := by
  rw [attributed?, attributed?, rescanFile, rescanFile, rescanMessage?, rescanMessage?, hfile,
    hmessage]

theorem firstTelling_filter (mark : List Char) (test : String) (events : List Event) :
    firstTelling mark test (events.filter (·.test = test)) = firstTelling mark test events := by
  rw [firstTelling, firstTelling, List.find?_filter]
  refine congrArg (events.find? ·) (funext fun e => ?_)
  by_cases he : e.test = test <;> simp [he]

/-- Only events of its own test make the entry of a marker. -/
theorem attributed?_filter (c : Correlator) (events : List Event) (marker : Event) :
    c.attributed? (events.filter (·.test = marker.test)) marker = c.attributed? events marker :=
  attributed?_congr (firstTelling_filter ..) (firstTelling_filter ..)

/-! ## Other tests -/

/-- Do two sequences have the same events of every test, in the same order? -/
def SameStreams (events events' : List Event) : Prop :=
  ∀ test, test ≠ "" → events.filter (·.test = test) = events'.filter (·.test = test)

/-- The failures of one test are those of its own fail markers. -/
theorem filter_rescan (c : Correlator) (events : List Event) (test : String) :
    (c.rescan events).filter (·.2.fullName = test)
      = ((events.filter (·.test = test)).filter Event.isFailMarker).filterMap
          (c.attributed? events) := by
  have htest : ∀ marker x, c.attributed? events marker = some x →
      decide (x.2.fullName = test) = decide (marker.test = test) := by
    intro marker x hx
    rw [fullName_of_attributed? hx]
  rw [rescan_eq, filter_filterMap htest, List.filter_filter, List.filter_filter]
  refine congrArg _ (List.filter_congr fun e _ => ?_)
  rw [Bool.and_comm]

theorem filter_rescan_congr (c : Correlator) (h : SameStreams events events') (test : String) :
    (c.rescan events).filter (·.2.fullName = test)
      = (c.rescan events').filter (·.2.fullName = test) := by
  rw [filter_rescan, filter_rescan]
  by_cases ht : test = ""
  · -- no fail marker is without a test
    have hnone : ∀ es : List Event,
        (es.filter (·.test = test)).filter Event.isFailMarker = [] := by
      intro es
      rw [List.filter_filter, List.filter_eq_nil_iff]
      intro e _
      simp only [Bool.and_eq_true, decide_eq_true_eq, isFailMarker_iff, not_and]
      rintro ⟨-, hne⟩ he
      exact hne (he.trans ht)
    rw [hnone, hnone]
    rfl
  · rw [h test ht]
    refine List.filterMap_congr fun m hm => ?_
    obtain ⟨hm, -⟩ := List.mem_filter.mp hm
    have htest : m.test = test := by simpa using (List.mem_filter.mp hm).2
    rw [← attributed?_filter c events, ← attributed?_filter c events', htest, h test ht]

theorem rescan_perm (c : Correlator) (h : SameStreams events events') :
    (c.rescan events).Perm (c.rescan events') :=
  perm_of_filter_eq (fun x => x.2.fullName) (c.filter_rescan_congr h)

/-- The tests of an identity that an index lists under a path. -/
def testsUnder (index : FailureIndex) (p : Path) (test : String) : List FailingTest :=
  ((index.get? p).getD []).filter (·.fullName = test)

theorem testsUnder_correlate (c : Correlator) (events : List Event) (p : Path) (test : String) :
    testsUnder (c.correlate events) p test
      = (((c.rescan events).filter (·.2.fullName = test)).filter (·.1.same p)).map (·.2) := by
  have hlisted : ((c.correlate events).get? p).getD []
      = ((c.rescan events).filter (·.1.same p)).map (·.2) := by
    rw [(records_correlate c events).get]
    split
    · rfl
    · next hnone =>
        rw [Option.getD_none, eq_comm, List.map_eq_nil_iff, List.filter_eq_nil_iff]
        simpa using hnone
  rw [testsUnder, hlisted, List.filter_map, List.filter_filter, List.filter_filter]
  refine congrArg _ (List.filter_congr fun x _ => ?_)
  rw [Function.comp_apply, Bool.and_comm]

/-- **How tests are mixed does not matter.** If two sequences have the same events of
every test, the indices they are correlated to have the same files, for every file the
same tests in some order, and of one test the same entries in the same order. Both are
filled from the fail markers in their order, with the same entry for all markers of a
test. -/
theorem correlate_interleaving (c : Correlator) (h : SameStreams events events') :
    (∀ p, (c.correlate events).files.any (·.same p) = (c.correlate events').files.any (·.same p))
      ∧ (∀ p, ((c.correlate events).get? p).map Multiset.ofList
          = ((c.correlate events').get? p).map Multiset.ofList)
      ∧ (∀ p test, testsUnder (c.correlate events) p test
          = testsUnder (c.correlate events') p test)
      ∧ ∃ entry : String → Option (Path × FailingTest), ∀ es ∈ [events, events'],
          (c.correlate es).Records
            ((es.filter Event.isFailMarker).filterMap fun m => entry m.test) := by
  have hperm := c.rescan_perm h
  have hany : ∀ p : Path,
      (c.rescan events).any (·.1.same p) = (c.rescan events').any (·.1.same p) :=
    fun p => hperm.any_eq
  refine ⟨fun p => ?_, fun p => ?_, fun p test => ?_, ?_⟩
  · rw [FailureIndex.any_files (holds_correlate c events),
      FailureIndex.any_files (holds_correlate c events'), hany]
  · rw [(records_correlate c events).get, (records_correlate c events').get, hany]
    split
    · exact congrArg some (Multiset.coe_eq_coe.mpr ((hperm.filter _).map _))
    · rfl
  · rw [testsUnder_correlate, testsUnder_correlate, filter_rescan_congr c h]
  · refine ⟨fun test => c.attributed? events ⟨"fail", test, "", ""⟩, fun es hes => ?_⟩
    have hentry : ∀ m ∈ es.filter Event.isFailMarker,
        c.attributed? events ⟨"fail", m.test, "", ""⟩ = c.attributed? es m := by
      intro m hm
      have hne : m.test ≠ "" := ((isFailMarker_iff m).mp (List.mem_filter.mp hm).2).2
      rcases List.mem_pair.mp hes with rfl | rfl
      · rfl
      · rw [← attributed?_filter c _ m, ← h _ hne]
        exact (attributed?_filter c events ⟨"fail", m.test, "", ""⟩).symm
    rw [List.filterMap_congr hentry, ← rescan_eq]
    exact records_correlate c es

/-- The events of two tests, one test after the other. -/
def inTurn : List Event :=
  [⟨"output", "TestA", "a_test.go:2: bad\n", "pkg"⟩, ⟨"fail", "TestA", "", "pkg"⟩,
   ⟨"output", "TestB", "b_test.go:9: worse\n", "pkg"⟩, ⟨"fail", "TestB", "", "pkg"⟩]

/-- The same events, of tests that run side by side. -/
def sideBySide : List Event :=
  [⟨"output", "TestB", "b_test.go:9: worse\n", "pkg"⟩,
   ⟨"output", "TestA", "a_test.go:2: bad\n", "pkg"⟩, ⟨"fail", "TestB", "", "pkg"⟩,
   ⟨"fail", "TestA", "", "pkg"⟩]

theorem correlate_inTurn_sideBySide :
    SameStreams inTurn sideBySide
      ∧ (correlate {} inTurn).files = (correlate {} sideBySide).files.reverse
      ∧ testsUnder (correlate {} inTurn) ⟨"a_test.go"⟩ "TestA"
        = testsUnder (correlate {} sideBySide) ⟨"a_test.go"⟩ "TestA" := by
  have hstreams : SameStreams inTurn sideBySide := by
    intro test _
    by_cases hA : "TestA" = test
    · subst hA
      decide
    · by_cases hB : "TestB" = test
      · subst hB
        decide
      · simp [inTurn, sideBySide, hA, hB]
  exact ⟨hstreams, by decide +kernel, (correlate_interleaving {} hstreams).2.2.1 _ _⟩

/-! ## Other packages -/

/-- Does the package of a marker have an output of the test with a mark before any other
package has one? -/
def OwnFirst (mark : List Char) (events : List Event) (marker : Event) : Prop :=
  ∀ before e after, events = before ++ e :: after → e.test = marker.test →
    mark <:+: e.output.toList → e.package ≠ marker.package →
    ∃ own ∈ before, own.package = marker.package ∧ own.test = marker.test
      ∧ mark <:+: own.output.toList

theorem firstTelling_package {marker : Event} (h : OwnFirst mark events marker) :
    firstTelling mark marker.test (events.filter (·.package = marker.package))
      = firstTelling mark marker.test events := by
  refine find?_filter_eq fun before e after hsplit htells hother => ?_
  obtain ⟨htest, hmark⟩ := of_decide_eq_true htells
  obtain ⟨own, hown, hpackage, htest, hmark⟩ :=
    h before e after hsplit htest hmark (of_decide_eq_false hother)
  exact ⟨own, hown, decide_eq_true hpackage, decide_eq_true ⟨htest, hmark⟩⟩

/-- **A package borrows only from a test of the same name that tells first.** An index
lists the entries of the fail markers, in their order. Each is made from the events of the
marker's test alone. It is what the marker's own package alone would give if no other
package has an output of this test with either mark before that package has one itself. -/
theorem entries_by_package (c : Correlator) (events : List Event) :
    (∀ es, (c.correlate es).Records
        ((es.filter Event.isFailMarker).filterMap (c.attributed? es)))
      ∧ (∀ marker, c.attributed? (events.filter (·.test = marker.test)) marker
          = c.attributed? events marker)
      ∧ ∀ marker, OwnFirst c.mark events marker → OwnFirst [':', ' '] events marker →
          c.attributed? (events.filter (·.package = marker.package)) marker
            = c.attributed? events marker := by
  refine ⟨fun es => ?_, attributed?_filter c events, fun marker hfile hmessage => ?_⟩
  · rw [← rescan_eq]
    exact records_correlate c es
  · exact attributed?_congr (firstTelling_package hfile) (firstTelling_package hmessage)

/-- Two packages with a failing test of one name. -/
def sameName : List Event :=
  [⟨"output", "TestA", "a_test.go:2: bad\n", "a"⟩, ⟨"fail", "TestA", "", "a"⟩,
   ⟨"output", "TestA", "b_test.go:9: worse\n", "b"⟩, ⟨"fail", "TestA", "", "b"⟩]

/-- The second package's failure is put under the file of the first, with its message. -/
theorem entry_borrowed_from_package :
    let marker : Event := ⟨"fail", "TestA", "", "b"⟩
    marker ∈ sameName ∧ marker.isFailMarker = true
      ∧ (correlate {} sameName).slots
        = [⟨⟨"a_test.go"⟩, [⟨"TestA", "bad"⟩, ⟨"TestA", "bad"⟩]⟩]
      ∧ (correlate {} (sameName.filter (·.package = marker.package))).slots
        = [⟨⟨"b_test.go"⟩, [⟨"TestA", "worse"⟩]⟩]
      ∧ attributed? {} sameName marker
        ≠ attributed? {} (sameName.filter (·.package = marker.package)) marker := by
  decide +kernel

end Correlator

end TestTriage
