import Mathlib.Data.List.Forall2
import TestTriage.Proofs.Go.DocComment
import TestTriage.Proofs.Go.Expansion
import TestTriage.Proofs.Paths
import TestTriage.Triage

/-!
# From a test file to bundles

What a file with failing tests comes to. The two files that are read, the
test file and the file it tests, may be one and the same; by
`processFile_eq` this makes no difference, as the path of a file that is
its own is the path of the file it tests.

A bundle is then described by the declarations of the two files alone
(`IsBundle`): those that are the test by name, and those whose names the
tests call, directly or by calls within the file. The set of names in
between drops out, and with it the order in which names are found. The
texts come from the file as it stands (`exists_slice`).
-/

namespace TestTriage

open Relation

/-! ## Reading source files -/

namespace FileTree

variable {t : FileTree} {p : Path}

/-- The file at a path is well formed and reads as `f`. -/
def Opens (t : FileTree) (p : Path) (f : Go.SourceFile) : Prop :=
  ∃ text, t.readText p = .ok text ∧ Go.SourceFile.read p text = .ok f

/-- The file at a path cannot be read, or is not well formed. -/
inductive Refuses (t : FileTree) (p : Path) : Problem → Prop where
  | unreadable {fault : Fault} (h : t.readText p = .error fault) :
      Refuses t p (.unreadableSource p fault)
  | broken {text : String} {diagnosis : Go.Diagnosis} (h : t.readText p = .ok text)
      (hread : Go.SourceFile.read p text = .error diagnosis) :
      Refuses t p (.brokenSource p diagnosis)

theorem readSource_eq_ok {f : Go.SourceFile} : t.readSource p = .ok f ↔ t.Opens p f := by
  rw [readSource, Opens]
  cases ht : t.readText p with
  | error fault => simp
  | ok text => cases hf : Go.SourceFile.read p text <;> simp [hf]

theorem readSource_eq_error {problem : Problem} :
    t.readSource p = .error problem ↔ t.Refuses p problem := by
  constructor
  · intro h
    rw [readSource] at h
    cases ht : t.readText p with
    | error fault =>
        rw [ht] at h
        cases h
        exact .unreadable ht
    | ok text =>
        cases hf : Go.SourceFile.read p text with
        | error diagnosis =>
            simp only [ht, hf] at h
            cases h
            exact .broken ht hf
        | ok f => simp [ht, hf] at h
  · intro h
    cases h with
    | unreadable ht => rw [readSource, ht]
    | broken ht hf => simp only [readSource, ht, hf]

theorem path_of_opens {f : Go.SourceFile} (h : t.Opens p f) : f.path = p := by
  obtain ⟨text, -, hread⟩ := h
  rw [Go.SourceFile.read] at hread
  split at hread <;> cases hread
  rfl

/-! ## Slices of files -/

/-- The text stands in the file at the path, byte by byte. -/
def HasSlice (t : FileTree) (p : Path) (slice : String) : Prop :=
  ∃ before behind : String, t.read p = .ok (before ++ slice ++ behind).toUTF8

theorem read_of_readText {text : String} (h : t.readText p = .ok text) :
    t.read p = .ok text.toUTF8 := by
  obtain ⟨content, hread, h⟩ := bind_eq_ok.mp h
  rw [String.fromUTF8?] at h
  split at h
  · next text' htext =>
      cases h
      split at htext
      · cases htext
        exact hread
      · cases htext
  · cases h

theorem exists_slice {f : Go.SourceFile} (h : t.Opens p f) {d : Go.Declaration}
    (hd : d ∈ f.declarations) : t.HasSlice p d.text := by
  obtain ⟨text, htext, hread⟩ := h
  obtain ⟨before, behind, hslice⟩ := Go.SourceFile.exists_append_text hread hd
  exact ⟨before, behind, hslice ▸ read_of_readText htext⟩

end FileTree

namespace Triage

variable {g : Triage} {t : FileTree} {p : Path} {tests : List FailingTest}
  {testFile implementation : Go.SourceFile} {test : FailingTest}

/-! ## The bundle of a test -/

/-- Is a declaration the function of a failing test? -/
def IsTestOf (g : Triage) (test : FailingTest) (d : Go.Declaration) : Prop :=
  d.name = test.name ∧ g.naming.beginning.toList <+: d.name.toList

instance decidableIsTestOf (g : Triage) (test : FailingTest) (d : Go.Declaration) :
    Decidable (g.IsTestOf test d) :=
  inferInstanceAs (Decidable (d.name = test.name ∧ g.naming.beginning.toList <+: d.name.toList))

/-- Does the function of a failing test call the name? If calls are followed, calls
within the file that is tested may lead on to it. -/
def Needs (g : Triage) (testFile implementation : Go.SourceFile) (test : FailingTest)
    (name : String) : Prop :=
  ∃ d ∈ testFile.declarations, g.IsTestOf test d ∧ ∃ target ∈ d.callTargets,
    name = target ∨ g.transitive = true ∧ ReflTransGen implementation.Calls target name

theorem testsNamed_eq (g : Triage) (testFile : Go.SourceFile) (test : FailingTest) :
    testFile.testsNamed g.naming test.name
      = testFile.declarations.filter (g.IsTestOf test ·) := by
  refine List.filter_congr fun d _ => ?_
  rw [Bool.eq_iff_iff, Go.TestNaming.isTest, Go.TestNaming.isTestName, Bool.and_eq_true,
    List.isPrefixOf_iff_prefix, beq_iff_eq, decide_eq_true_iff, IsTestOf, and_comm]

theorem contains_dependenciesOf {name : String} :
    (g.dependenciesOf (testFile.testsNamed g.naming test.name) implementation).contains name = true
      ↔ g.Needs testFile implementation test name := by
  have hcalled : ∀ target,
      (Go.dependencies (testFile.testsNamed g.naming test.name)).contains target = true
        ↔ ∃ d ∈ testFile.declarations, g.IsTestOf test d ∧ target ∈ d.callTargets := by
    intro target
    simp only [Go.dependencies, NameSet.contains_ofList, List.mem_flatMap, testsNamed_eq,
      List.mem_filter, decide_eq_true_iff, and_assoc]
  rw [dependenciesOf, Needs]
  cases htransitive : g.transitive with
  | false => simp [hcalled]
  | true =>
      rw [if_pos rfl, Go.SourceFile.contains_expand]
      constructor
      · rintro ⟨target, htarget, hchain⟩
        obtain ⟨d, hd, htest, hcalls⟩ := (hcalled target).mp htarget
        exact ⟨d, hd, htest, target, hcalls, .inr ⟨rfl, hchain⟩⟩
      · rintro ⟨d, hd, htest, target, hcalls, hname⟩
        refine ⟨target, (hcalled target).mpr ⟨d, hd, htest, hcalls⟩, ?_⟩
        rcases hname with rfl | ⟨-, hchain⟩
        · exact .refl
        · exact hchain

instance decidableNeeds (g : Triage) (testFile implementation : Go.SourceFile)
    (test : FailingTest) (name : String) : Decidable (g.Needs testFile implementation test name) :=
  decidable_of_iff _ contains_dependenciesOf

/-- The bundle of a failing test, by the declarations of the two files. -/
structure IsBundle (g : Triage) (p : Path) (testFile implementation : Go.SourceFile)
    (test : FailingTest) (b : Bundle) : Prop where
  testName : b.testName = test.name
  fullTestName : b.fullTestName = test.fullName
  testError : b.testError = test.error
  testPath : b.testFile = some p
  implementationPath : b.implementationFile = some (implementationPath p)
  testSources :
    b.testSources = (testFile.declarations.filter (g.IsTestOf test ·)).map (·.text)
  dependencySources :
    b.dependencySources = (implementation.declarations.filter
      (g.Needs testFile implementation test ·.name)).map (·.text)

theorem isBundle_iff {b : Bundle} (htest : testFile.path = p)
    (hother : implementation.path = TestTriage.implementationPath p) :
    g.IsBundle p testFile implementation test b ↔ g.bundleFor test testFile implementation = b := by
  have hneeded : implementation.declarationsIn
        (g.dependenciesOf (testFile.testsNamed g.naming test.name) implementation)
      = implementation.declarations.filter (g.Needs testFile implementation test ·.name) :=
    List.filter_congr fun d _ => by
      rw [Bool.eq_iff_iff, contains_dependenciesOf, decide_eq_true_iff]
  rw [bundleFor, hneeded, testsNamed_eq, htest, hother]
  constructor
  · rintro ⟨h1, h2, h3, h4, h5, h6, h7⟩
    cases b
    simp_all [Bundle.ofTest, Bundle.withFiles]
  · rintro rfl
    exact ⟨rfl, rfl, rfl, rfl, rfl, rfl, rfl⟩

/-! ## The two files -/

/-- A file that is its own is read once, which is as good as twice. -/
theorem processFile_eq (g : Triage) (t : FileTree) (p : Path) (tests : List FailingTest) :
    g.processFile t p tests
      = (t.readSource p).bind fun testFile =>
          (t.readSource (implementationPath p)).bind fun implementation =>
            .ok (tests.map (g.bundleFor · testFile implementation)) := by
  rw [processFile]
  cases hread : t.readSource p with
  | error problem => rfl
  | ok testFile =>
      by_cases hsame : (implementationPath p).same p = true
      · have hself : implementationPath p = p := implementationPath_eq_self hsame
        have hother : t.readSource (implementationPath p) = .ok testFile := by rw [hself, hread]
        simp [hsame, hother, bind, Except.bind, pure, Except.pure]
      · simp [hsame, bind, Except.bind, pure, Except.pure]

theorem processFile_eq_error {problem : Problem} :
    g.processFile t p tests = .error problem
      ↔ t.readSource p = .error problem
        ∨ ∃ testFile, t.readSource p = .ok testFile
          ∧ t.readSource (implementationPath p) = .error problem := by
  rw [processFile_eq]
  cases hread : t.readSource p with
  | error problem => simp [Except.bind]
  | ok testFile => cases hother : t.readSource (implementationPath p) <;> simp [Except.bind]

theorem processFile_eq_ok {bundles : List Bundle} :
    g.processFile t p tests = .ok bundles
      ↔ ∃ testFile implementation, t.readSource p = .ok testFile
        ∧ t.readSource (implementationPath p) = .ok implementation
        ∧ tests.map (g.bundleFor · testFile implementation) = bundles := by
  rw [processFile_eq]
  cases hread : t.readSource p with
  | error problem => simp [Except.bind]
  | ok testFile => cases hother : t.readSource (implementationPath p) <;> simp [Except.bind]

theorem processFile_eq_ok_iff_isBundle {bundles : List Bundle} :
    g.processFile t p tests = .ok bundles
      ↔ ∃ testFile implementation, t.Opens p testFile
        ∧ t.Opens (implementationPath p) implementation
        ∧ List.Forall₂ (g.IsBundle p testFile implementation) tests bundles := by
  rw [processFile_eq_ok]
  refine exists_congr fun testFile => exists_congr fun implementation => ?_
  rw [FileTree.readSource_eq_ok, FileTree.readSource_eq_ok]
  refine and_congr_right fun htest => and_congr_right fun hother => ?_
  have hbundle : ∀ test b, g.IsBundle p testFile implementation test b
      ↔ g.bundleFor test testFile implementation = b := fun test b =>
    isBundle_iff (FileTree.path_of_opens htest) (FileTree.path_of_opens hother)
  rw [← List.forall₂_eq_eq_eq, List.forall₂_map_left_iff]
  exact ⟨fun h => h.imp fun test b => (hbundle test b).mpr,
    fun h => h.imp fun test b => (hbundle test b).mp⟩

/-- Every text of a bundle stands in its file. -/
theorem IsBundle.hasSlice {b : Bundle} (h : g.IsBundle p testFile implementation test b)
    (htest : t.Opens p testFile)
    (hother : t.Opens (TestTriage.implementationPath p) implementation) :
    (∀ source ∈ b.testSources, t.HasSlice p source)
      ∧ ∀ source ∈ b.dependencySources, t.HasSlice (TestTriage.implementationPath p) source := by
  constructor
  · intro source hsource
    rw [h.testSources] at hsource
    obtain ⟨d, hd, rfl⟩ := List.mem_map.mp hsource
    exact FileTree.exists_slice htest (List.mem_filter.mp hd).1
  · intro source hsource
    rw [h.dependencySources] at hsource
    obtain ⟨d, hd, rfl⟩ := List.mem_map.mp hsource
    exact FileTree.exists_slice hother (List.mem_filter.mp hd).1

/-- What a test needs is told by the name of its function. -/
theorem IsBundle.sources_eq {test' : FailingTest} {b b' : Bundle}
    (h : g.IsBundle p testFile implementation test b)
    (h' : g.IsBundle p testFile implementation test' b') (hname : b.testName = b'.testName) :
    b.testSources = b'.testSources ∧ b.dependencySources = b'.dependencySources := by
  rw [h.testName, h'.testName] at hname
  have htests : g.IsTestOf test = g.IsTestOf test' := by
    funext d
    rw [IsTestOf, IsTestOf, hname]
  have hneeds : g.Needs testFile implementation test = g.Needs testFile implementation test' := by
    funext name
    rw [Needs, Needs, htests]
  rw [h.testSources, h'.testSources, h.dependencySources, h'.dependencySources]
  simp only [htests, hneeds, and_self]

/-- **A file with failing tests comes to a bundle for each, or to the problem of a
file.** It fails just if the test file cannot be used, or else, if it is another
one, the file that it tests. Otherwise the bundles are those of the tests in their
order. All their texts stand in the files, and tests of one function have the
same. -/
theorem processFile_bundles (g : Triage) (t : FileTree) (p : Path) (tests : List FailingTest) :
    (∀ problem, g.processFile t p tests = .error problem
        ↔ t.Refuses p problem
          ∨ (∃ testFile, t.Opens p testFile) ∧ (implementationPath p).same p = false
            ∧ t.Refuses (implementationPath p) problem)
      ∧ ∀ bundles, (g.processFile t p tests = .ok bundles
          ↔ ∃ testFile implementation, t.Opens p testFile
            ∧ t.Opens (implementationPath p) implementation
            ∧ List.Forall₂ (g.IsBundle p testFile implementation) tests bundles)
        ∧ (g.processFile t p tests = .ok bundles →
          (∀ b ∈ bundles, (∀ source ∈ b.testSources, t.HasSlice p source)
            ∧ ∀ source ∈ b.dependencySources, t.HasSlice (implementationPath p) source)
          ∧ ∀ b ∈ bundles, ∀ b' ∈ bundles, b.testName = b'.testName →
            b.testSources = b'.testSources ∧ b.dependencySources = b'.dependencySources) := by
  refine ⟨fun problem => ?_, fun bundles => ⟨processFile_eq_ok_iff_isBundle, fun h => ?_⟩⟩
  · rw [processFile_eq_error]
    simp only [FileTree.readSource_eq_error, FileTree.readSource_eq_ok]
    refine or_congr_right ?_
    constructor
    · rintro ⟨testFile, htest, hother⟩
      refine ⟨⟨testFile, htest⟩, ?_, hother⟩
      -- the file itself was read
      rw [← Bool.not_eq_true]
      intro hsame
      rw [implementationPath_eq_self hsame, ← FileTree.readSource_eq_error,
        FileTree.readSource_eq_ok.mpr htest] at hother
      cases hother
    · rintro ⟨⟨testFile, htest⟩, -, hother⟩
      exact ⟨testFile, htest, hother⟩
  · obtain ⟨testFile, implementation, htest, hother, hbundles⟩ :=
      processFile_eq_ok_iff_isBundle.mp h
    have hmade : ∀ b ∈ bundles, ∃ test, g.IsBundle p testFile implementation test b := by
      intro b hb
      obtain ⟨i, hi, rfl⟩ := List.mem_iff_getElem.mp hb
      exact ⟨_, hbundles.get (hbundles.length_eq ▸ hi) hi⟩
    refine ⟨fun b hb => ?_, fun b hb b' hb' hname => ?_⟩
    · obtain ⟨test, hbundle⟩ := hmade b hb
      exact hbundle.hasSlice htest hother
    · obtain ⟨test, hbundle⟩ := hmade b hb
      obtain ⟨test', hbundle'⟩ := hmade b' hb'
      exact hbundle.sources_eq hbundle' hname

end Triage

end TestTriage
