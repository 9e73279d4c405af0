import TestTriage.Proofs.Printing
import TestTriage.Proofs.Text.Lines

/-!
# Summaries and lines

A summary is meant to be a line, but its texts are put into it as they come,
so it is one line just if none of them has a line feed (`oneLine_summary`).
What a run prints are the summaries of its bundles (`runOptions_output`),
however far it gets. So the lines that it prints are the lines of the
summaries, and they are as many as the bundles just if every summary is one
line (`lines_of_summaries`).

A message may have a line feed: only those at its end are taken off, and an
output of several lines is all message behind its first mark
(`summary_broken`).
-/

namespace TestTriage

open Text (Bytes utf8)
open Json (OneLine)

theorem newline_notMem_digits (n : Nat) : '\n' ∉ (toString n).toList := by
  intro h
  rw [Nat.toString_eq_repr, Nat.repr, String.toList_ofList] at h
  exact absurd (Nat.isDigit_of_mem_toDigits (by decide) (by decide) h) (by decide)

/-! ## Summaries -/

namespace Bundle

/-- None of the texts that a summary shows has a line feed. -/
structure FitsLine (b : Bundle) : Prop where
  testFile : ∀ p ∈ b.testFile, '\n' ∉ p.text.toList
  fullTestName : '\n' ∉ b.fullTestName.toList
  testError : '\n' ∉ b.testError.toList

theorem oneLine_summary {b : Bundle} : OneLine (utf8 b.summary) ↔ b.FitsLine := by
  have hdigits : ∀ n : Nat, OneLine (utf8 (toString n)) := fun n =>
    Text.oneLine_utf8.mpr (newline_notMem_digits n)
  have htab : OneLine (utf8 "\t") := by decide
  have htests : OneLine (utf8 " test decl(s)") := by decide
  have hdependencies : OneLine (utf8 " dependency decl(s)") := by decide
  have hfile : OneLine (utf8 ((b.testFile.map (·.text)).getD ""))
      ↔ ∀ p ∈ b.testFile, '\n' ∉ p.text.toList := by
    cases b.testFile <;> simp [Text.oneLine_utf8]
  simp only [summary, Text.utf8_append, Json.oneLine_append, hdigits, htab, htests, hdependencies,
    hfile, and_true, Text.oneLine_utf8 (s := b.fullTestName), Text.oneLine_utf8 (s := b.testError)]
  constructor
  · rintro ⟨⟨hfile, hname⟩, herror⟩
    exact ⟨hfile, hname, herror⟩
  · intro h
    exact ⟨⟨h.testFile, h.fullTestName⟩, h.testError⟩

end Bundle

/-! ## What is printed -/

/-- The bundles that a run prints. -/
def Surroundings.printed (s : Surroundings) (g : Triage) (events : List Event) : List Bundle :=
  (g.successes (g.outcomes s.tree events)).flatMap (·.bundles)

/-- Where no failure can be located nothing comes out. -/
theorem printed_of_none (s : Surroundings) (g : Triage) {events : List Event}
    (h : Correlator.locatableMarkers {} events = []) : s.printed g events = [] := by
  have hslots : (Correlator.correlate {} events).slots = [] :=
    List.isEmpty_iff.mp ((isEmpty_correlate {} events).mpr h)
  have houtcomes : g.outcomes s.tree events = [] := by
    rw [Triage.outcomes, Triage.resolve, FailureIndex.resolveEach, hslots]
    rfl
  rw [Surroundings.printed, houtcomes, Triage.successes]
  split <;> rfl

/-- What a run prints, once it has settings and events, are the bundles. -/
theorem runOptions_output {s : Surroundings} {o : CommandLine.Options} {loaded : Settings}
    {feed : Bytes} {events : List Event} (hsettings : s.settings o = .ok loaded)
    (hfeed : s.feed? o = some feed) (hevents : Feed.events feed = .ok events) :
    (runOptions s o).output = String.join
      ((s.printed ((o.layer.apply loaded).triage (o.root.getD ⟨"."⟩)) events).map
        (o.layer.apply loaded).format.render) := by
  cases runOptions_ends s o with
  | unsettled h => rw [hsettings] at h; cases h
  | unfed _ h => rw [hfeed] at h; cases h
  | malformed _ h h' =>
      rw [hfeed] at h
      cases h
      rw [hevents] at h'
      cases h'
  | idle _ h h' hnone _ hout =>
      rw [hfeed] at h
      cases h
      rw [hevents] at h'
      cases h'
      rw [hout, printed_of_none s _ hnone]
      rfl
  | printed hsettings' h h' _ happly htriage hout =>
      rw [hsettings] at hsettings'
      cases hsettings'
      rw [hfeed] at h
      cases h
      rw [hevents] at h'
      cases h'
      rw [hout, happly, htriage, happly]
      rfl

/-- **A run in the summary format prints the lines of its summaries.** They are as
many as the bundles, and each of them the summary of its bundle, just if no path, test
or message that is shown has a line feed. -/
theorem lines_of_summaries (s : Surroundings) {arguments : List String} {o : CommandLine.Options}
    {loaded : Settings} {feed : Bytes} {events : List Event}
    (hread : CommandLine.read arguments = .ok o) (hsettings : s.settings o = .ok loaded)
    (hfeed : s.feed? o = some feed) (hevents : Feed.events feed = .ok events)
    (hformat : (o.layer.apply loaded).format = .summary) :
    let g := (o.layer.apply loaded).triage (o.root.getD ⟨"."⟩)
    let bundles := s.printed g events
    let lines := Feed.lines (utf8 (run s arguments).output)
    lines = (bundles.map Bundle.summary).flatMap Text.linesOf
      ∧ (lines.length = bundles.length ↔ ∀ b ∈ bundles, b.FitsLine)
      ∧ (lines = bundles.map (fun b => utf8 b.summary) ↔ ∀ b ∈ bundles, b.FitsLine) := by
  intro g bundles lines
  have hlines : lines = (bundles.map Bundle.summary).flatMap Text.linesOf := by
    have houtput : (run s arguments).output = (runOptions s o).output := by
      simp only [run, hread, Report.filtered]
    rw [← Text.lines_join, List.map_map]
    simp only [lines, houtput, runOptions_output hsettings hfeed hevents, hformat]
    rfl
  have hfits : (∀ t ∈ bundles.map Bundle.summary, OneLine (utf8 t))
      ↔ ∀ b ∈ bundles, b.FitsLine := by
    rw [List.forall_mem_map]
    exact forall₂_congr fun _ _ => Bundle.oneLine_summary
  have hlength : lines.length = bundles.length ↔ ∀ b ∈ bundles, b.FitsLine := by
    rw [← hfits, hlines, ← Text.length_flatMap_linesOf, List.length_map]
  refine ⟨hlines, hlength, fun h => ?_, fun h => ?_⟩
  · rw [← hlength, h, List.length_map]
  · rw [hlines, Text.flatMap_linesOf (hfits.mpr h), List.map_map, Function.comp_def]

/-- Of two files with failures one is not there: there is one bundle, and one line. -/
theorem lines_of_summaries_twoFailures :
    let s : Surroundings := ⟨Triage.oneFile, none, none, twoFailures.toUTF8⟩
    let o : CommandLine.Options := { format := some .summary, keepGoing := some true }
    let arguments := ["--keep-going", "--format", "summary"]
    let events : List Event :=
      [⟨"output", "TestA", "a_test.go:2: bad", ""⟩, ⟨"fail", "TestA", "", ""⟩,
       ⟨"output", "TestB", "b_test.go:9: worse", ""⟩, ⟨"fail", "TestB", "", ""⟩]
    let bundles := s.printed ((o.layer.apply {}).triage ⟨"."⟩) events
    let lines := Feed.lines (utf8 (run s arguments).output)
    CommandLine.read arguments = .ok o ∧ s.settings o = .ok {}
      ∧ s.feed? o = some s.input.data.toList ∧ Feed.events s.input.data.toList = .ok events
      ∧ (o.layer.apply {}).format = .summary
      ∧ lines.length = 1 ∧ bundles.length = 1 ∧ (∀ b ∈ bundles, b.FitsLine)
      ∧ lines = bundles.map fun b => utf8 b.summary := by
  intro s o arguments events bundles lines
  have hread : CommandLine.read arguments = .ok o := by decide +kernel
  have hsettings : s.settings o = .ok {} := by decide +kernel
  have hevents : Feed.events s.input.data.toList = .ok events := by decide +kernel
  have houtput : (run s arguments).output
      = "./pkg/a_test.go\tTestA\t1 test decl(s)\t0 dependency decl(s)\tbad\n" := by decide +kernel
  have hlines : lines.length = 1 := by
    simp only [lines, houtput]
    decide +kernel
  have hbundles : bundles.length = 1 := by decide +kernel
  obtain ⟨-, hcount, hsame⟩ := lines_of_summaries s hread hsettings rfl hevents rfl
  have hfits : ∀ b ∈ bundles, b.FitsLine := hcount.mp (hlines.trans hbundles.symm)
  exact ⟨hread, hsettings, rfl, hevents, rfl, hlines, hbundles, hfits, hsame.mpr hfits⟩

/-- A feed in which the message of a test goes on behind a line feed. -/
def longMessage : String :=
  "\x7b\"Action\":\"output\",\"Test\":\"TestA\",\"Output\":\"a_test.go:2: bad\\nworse\\n\"\x7d\n"
    ++ "\x7b\"Action\":\"fail\",\"Test\":\"TestA\"\x7d\n"

/-- One bundle is printed, and two lines. -/
theorem summary_broken :
    let s : Surroundings := ⟨Triage.oneFile, none, none, longMessage.toUTF8⟩
    let o : CommandLine.Options := { format := some .summary }
    let events : List Event :=
      [⟨"output", "TestA", "a_test.go:2: bad\nworse\n", ""⟩, ⟨"fail", "TestA", "", ""⟩]
    CommandLine.read ["--format", "summary"] = .ok o ∧ s.settings o = .ok {}
      ∧ s.feed? o = some s.input.data.toList ∧ Feed.events s.input.data.toList = .ok events
      ∧ (o.layer.apply {}).format = .summary
      ∧ (s.printed ((o.layer.apply {}).triage ⟨"."⟩) events).length = 1
      ∧ (run s ["--format", "summary"]).output
        = "./pkg/a_test.go\tTestA\t1 test decl(s)\t0 dependency decl(s)\tbad\nworse\n" :=
  ⟨by decide +kernel, by decide +kernel, rfl, by decide +kernel, rfl, by decide +kernel,
    by decide +kernel⟩

end TestTriage
