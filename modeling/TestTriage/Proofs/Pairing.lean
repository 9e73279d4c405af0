import Mathlib.Data.List.TakeWhile
import TestTriage.Proofs.Conservation

/-!
# A test file and the file it tests

Which file a test file tests is told by its last part alone, a name with a
stem in front of the ending (`Path.IsTestOf`). The parts in front of it stay
as they are: the text in front of the file name has all parts but the last
(`parts_parentText`), so a new file name takes the place of the old one
(`parts_withFileName`). From the parts of the tested file those of the test
file can be told, and segments that add nothing at the end do not count.

How many files are opened for a test file is not seen from what comes out.
The reading of files is therefore left open (`processWith`): read plainly it
is the processing of the file, and read with notes it tells the paths as well
(`processWith_noting`).
-/

namespace TestTriage

namespace Path

variable {p q : Path} {n : String}

/-! ## The text in front of the file name -/

theorem fileName?_eq_some : p.fileName? = some n ↔ p.parts.getLast? = some (.name n) := by
  rw [fileName?]
  split <;> simp_all

theorem innerPart?_of_isIdle {segment : List Char} (h : isIdle segment = true) :
    innerPart? segment = none := by
  rw [innerPart?, if_pos h]

theorem filterMap_innerPart?_of_isIdle {segments : List (List Char)}
    (h : ∀ segment ∈ segments, isIdle segment = true) : segments.filterMap innerPart? = [] :=
  List.filterMap_eq_nil_iff.mpr fun segment hmem => innerPart?_of_isIdle (h segment hmem)

theorem exists_dropIdleEnd (segments : List (List Char)) :
    ∃ idle, segments = dropIdleEnd segments ++ idle ∧ ∀ segment ∈ idle, isIdle segment = true := by
  refine ⟨(segments.reverse.takeWhile isIdle).reverse, ?_, fun segment hmem => ?_⟩
  · rw [dropIdleEnd, ← List.reverse_append, List.takeWhile_append_dropWhile, List.reverse_reverse]
  · exact List.mem_takeWhile_imp (List.mem_reverse.mp hmem)

theorem filterMap_dropIdleEnd (segments : List (List Char)) :
    (dropIdleEnd segments).filterMap innerPart? = segments.filterMap innerPart? := by
  obtain ⟨idle, heq, hidle⟩ := exists_dropIdleEnd segments
  conv_rhs => rw [heq, List.filterMap_append, filterMap_innerPart?_of_isIdle hidle, List.append_nil]

/-- The last segment that is left is a part. -/
theorem innerPart?_of_dropIdleEnd {segments others : List (List Char)} {last : List Char}
    (h : (dropIdleEnd segments).reverse = last :: others) :
    ∃ part, innerPart? last = some part := by
  rw [dropIdleEnd, List.reverse_reverse] at h
  have hlast : isIdle last = false := by
    have hne : segments.reverse.dropWhile isIdle ≠ [] := h ▸ List.cons_ne_nil _ _
    simpa [h] using List.head_dropWhile_not isIdle hne
  rw [innerPart?, hlast, if_neg Bool.false_ne_true]
  split <;> exact ⟨_, rfl⟩

theorem segments_intercalate {first : List Char} {rest : List (List Char)}
    (h : ∀ segment ∈ first :: rest, '/' ∉ segment) :
    (⟨"/".intercalate ((first :: rest).map String.ofList)⟩ : Path).segments = first :: rest := by
  induction rest generalizing first with
  | nil =>
      rw [segments, List.map_singleton, String.intercalate_singleton, String.toList_ofList]
      exact Text.split_of_notMem (h first List.mem_cons_self)
  | cons next rest ih =>
      have htext : ("/".intercalate ((first :: next :: rest).map String.ofList)).toList
          = first ++ '/' :: ("/".intercalate ((next :: rest).map String.ofList)).toList := by
        simp [String.intercalate_cons_cons]
      rw [segments, htext, Text.split_append_cons,
        Text.split_of_notMem (h first List.mem_cons_self), ← segments,
        ih fun segment hmem => h segment (List.mem_cons_of_mem _ hmem)]
      rfl

/-- What the text in front of the file name is made of, if a segment behind the first
one is the file name. -/
theorem parts_parentText_of_inner {first last : List Char} {rest others : List (List Char)}
    (hsegments : p.segments = first :: rest) (hkept : dropIdleEnd rest = others ++ [last]) :
    (⟨p.parentText⟩ : Path).parts
      = (firstPart? first false).toList ++ others.filterMap innerPart? := by
  have hslash : ∀ segment ∈ first :: dropIdleEnd others, '/' ∉ segment := by
    intro segment hmem
    obtain ⟨idle, hrest, -⟩ := exists_dropIdleEnd rest
    obtain ⟨idle', hothers, -⟩ := exists_dropIdleEnd others
    have hmem : segment ∈ p.segments := by
      rw [hsegments, hrest, hkept, hothers]
      rcases List.mem_cons.mp hmem with rfl | hmem
      · exact List.mem_cons_self
      · simp [hmem]
    exact Text.notMem_of_mem_split hmem
  rw [parentText, hsegments, ← filterMap_dropIdleEnd others]
  simp only [hkept, List.reverse_append, List.reverse_cons, List.reverse_nil, List.nil_append,
    List.singleton_append, List.reverse_reverse]
  split
  · next hnone =>
      rw [hnone] at hslash ⊢
      split
      · next hempty =>
          rw [List.isEmpty_iff.mp hempty]
          rfl
      · next hempty =>
          have halone := segments_intercalate hslash
          rw [List.map_singleton, String.intercalate_singleton] at halone
          exact parts_of_segments_of_ne (by simpa using hempty) halone
  · next hsome =>
      rw [parts_of_segments (segments_intercalate hslash), List.isEmpty_eq_false_iff.mpr hsome]

/-- In front of the file name stand the parts in front of it. -/
theorem parts_parentText (h : p.fileName? = some n) :
    (⟨p.parentText⟩ : Path).parts ++ [.name n] = p.parts := by
  obtain ⟨first, rest, hsegments⟩ : ∃ first rest, p.segments = first :: rest :=
    List.exists_cons_of_ne_nil (Text.split_ne_nil p.text.toList)
  have hparts := parts_of_segments hsegments
  have hlast := fileName?_eq_some.mp h
  rw [← filterMap_dropIdleEnd rest] at hparts
  cases hkept : (dropIdleEnd rest).reverse with
  | nil =>
      -- the first segment is the file name, and nothing stands in front of it
      have hempty : p.parentText = "" := by
        rw [parentText, hsegments]
        simp only [hkept]
      rw [List.reverse_eq_nil_iff.mp hkept, List.filterMap_nil, List.append_nil] at hparts
      rw [hempty, hparts]
      cases hfirst : firstPart? first rest.isEmpty with
      | none => simp [hparts, hfirst] at hlast
      | some part =>
          obtain rfl : part = .name n := by simpa [hparts, hfirst] using hlast
          rfl
  | cons last others =>
      obtain ⟨part, hpart⟩ := innerPart?_of_dropIdleEnd hkept
      have hkept : dropIdleEnd rest = others.reverse ++ [last] := by
        rw [← List.reverse_reverse (dropIdleEnd rest), hkept, List.reverse_cons]
      have hfollowed : rest.isEmpty = false := by
        obtain ⟨idle, hrest, -⟩ := exists_dropIdleEnd rest
        rw [hrest, hkept]
        simp
      rw [hfollowed, hkept, List.filterMap_append, List.filterMap_cons_some hpart,
        List.filterMap_nil, ← List.append_assoc] at hparts
      obtain rfl : part = .name n := by
        rw [hparts, List.getLast?_concat] at hlast
        exact Option.some.inj hlast
      rw [hparts, parts_parentText_of_inner hsegments hkept]

/-- A new file name takes the place of the old one. -/
theorem parts_withFileName {old : String} (h : p.fileName? = some old) (hn : IsName n) :
    (p.withFileName n).parts = p.parts.dropLast ++ [.name n] := by
  rw [withFileName, parts_join _ hn, ← parts_parentText h, List.dropLast_concat]

/-! ## Segments at the end that add nothing -/

theorem parts_idleEnd (hp : p.text ≠ "") {ending : String}
    (h : ∀ segment ∈ Text.split '/' ending.toList, isIdle segment = true) :
    (⟨p.text ++ "/" ++ ending⟩ : Path).parts = p.parts := by
  obtain ⟨first, rest, hsegments⟩ : ∃ first rest, p.segments = first :: rest :=
    List.exists_cons_of_ne_nil (Text.split_ne_nil p.text.toList)
  have hlonger : (⟨p.text ++ "/" ++ ending⟩ : Path).segments
      = first :: (rest ++ Text.split '/' ending.toList) := by
    have htext : (p.text ++ "/" ++ ending).toList = p.text.toList ++ '/' :: ending.toList := by
      simp
    rw [segments, htext, Text.split_append_cons, ← segments, hsegments]
    rfl
  rw [parts_of_segments_of_ne (by simp) hlonger, List.filterMap_append,
    filterMap_innerPart?_of_isIdle h, List.append_nil,
    parts_of_segments_of_ne (by simpa using hp) hsegments]

/-! ## Names of test files -/

/-- The last part is the name of a test file with this stem. -/
structure IsTestOf (p : Path) (stem : String) : Prop where
  ne_empty : stem ≠ ""
  last : p.parts.getLast? = some (.name (stem ++ "_test.go"))

theorem isName_of_isTestOf {stem : String} (h : p.IsTestOf stem) : IsName (stem ++ ".go") := by
  have hname := isName_of_fileName? (fileName?_eq_some.mpr h.last)
  have hslash : '/' ∉ stem.toList := fun hmem =>
    hname.no_slash (by rw [String.toList_append]; exact List.mem_append_left _ hmem)
  have hgo := isName_append_go (by simpa using h.ne_empty) hslash
  rwa [String.ofList_append, String.ofList_toList, String.ofList_toList] at hgo

/-- At the end of a path, segments that add nothing do not change which name is last. -/
theorem isTestOf_idleEnd {ending : String}
    (h : ∀ segment ∈ Text.split '/' ending.toList, isIdle segment = true) (stem : String) :
    (⟨p.text ++ "/" ++ ending⟩ : Path).IsTestOf stem ↔ p.IsTestOf stem := by
  by_cases hp : p.text = ""
  · -- the empty path becomes the root, and neither has a name
    have hempty : p.parts = [] := by rw [parts, segments, hp]; rfl
    have hroot : (⟨p.text ++ "/" ++ ending⟩ : Path).parts = [.root] := by
      have hsegments : (⟨p.text ++ "/" ++ ending⟩ : Path).segments
          = [] :: Text.split '/' ending.toList := by
        rw [hp]
        simp [segments, Text.split]
      rw [parts_of_segments_of_ne (by simp) hsegments, filterMap_innerPart?_of_isIdle h]
      rfl
    constructor
    · intro hlonger
      have hlast := hlonger.last
      simp [hroot] at hlast
    · intro hshorter
      have hlast := hshorter.last
      simp [hempty] at hlast
  · have hparts := parts_idleEnd hp h
    exact ⟨fun hlonger => ⟨hlonger.ne_empty, hparts ▸ hlonger.last⟩,
      fun hshorter => ⟨hshorter.ne_empty, hparts.symm ▸ hshorter.last⟩⟩

end Path

/-! ## The file that is tested -/

variable {p q : Path} {stem stem' : String}

theorem implementationPath_of_isTestOf (h : p.IsTestOf stem) :
    implementationPath p = p.withFileName (stem ++ ".go") := by
  have hname := Path.fileName?_eq_some.mpr h.last
  have hstem : beforeEnding? "_test.go".toList (stem ++ "_test.go").toList = some stem.toList :=
    beforeEnding?_eq_some.mpr String.toList_append.symm
  rw [implementationPath, hname]
  simp only [hstem]
  split
  · next hnone => cases hnone
  · next hempty => exact absurd (by simpa using hempty) h.ne_empty
  · next hsome =>
      cases hsome
      rw [String.ofList_append, String.ofList_toList, String.ofList_toList]

theorem implementationPath_of_not_isTestOf (h : ∀ stem, ¬p.IsTestOf stem) :
    implementationPath p = p := by
  rw [implementationPath]
  split
  · rfl
  · next name hname =>
      split
      · rfl
      · rfl
      · next stem hne hstem =>
          refine absurd ⟨by simpa using hne, ?_⟩ (h (String.ofList stem))
          rw [← Path.fileName?_eq_some, hname, ← String.ofList_toList (s := name),
            ← beforeEnding?_eq_some.mp hstem, String.ofList_append, String.ofList_toList]

theorem parts_implementationPath (h : p.IsTestOf stem) :
    (implementationPath p).parts = p.parts.dropLast ++ [.name (stem ++ ".go")] := by
  rw [implementationPath_of_isTestOf h,
    Path.parts_withFileName (Path.fileName?_eq_some.mpr h.last) (Path.isName_of_isTestOf h)]

theorem Path.IsTestOf.parts_eq (h : p.IsTestOf stem) :
    p.parts = p.parts.dropLast ++ [.name (stem ++ "_test.go")] := by
  obtain ⟨front, hfront⟩ := List.getLast?_eq_some_iff.mp h.last
  rw [hfront, List.dropLast_concat]

/-- A test file and the file it tests are two files. -/
theorem same_implementationPath :
    (implementationPath p).same p = false ↔ ∃ stem, p.IsTestOf stem := by
  constructor
  · intro hother
    by_contra hnone
    rw [implementationPath_of_not_isTestOf (not_exists.mp hnone), ← Bool.not_eq_true,
      Path.same_iff] at hother
    exact hother rfl
  · rintro ⟨stem, h⟩
    rw [← Bool.not_eq_true, Path.same_iff, parts_implementationPath h]
    intro heq
    have hlast := congrArg List.getLast? heq
    rw [List.getLast?_concat, h.last] at hlast
    have hlength := congrArg String.length (Path.Part.name.inj (Option.some.inj hlast))
    simp only [String.length_append, Nat.add_left_cancel_iff] at hlength
    exact absurd hlength (by decide)

/-- The file that is tested tells its test file. -/
theorem same_of_same_implementationPath (h : p.IsTestOf stem) (h' : q.IsTestOf stem')
    (hsame : (implementationPath p).same (implementationPath q) = true) : p.same q = true := by
  rw [Path.same_iff, parts_implementationPath h, parts_implementationPath h'] at hsame
  obtain ⟨hfront, hlast⟩ := List.append_inj' hsame rfl
  have hstem : stem = stem' :=
    String.append_left_inj _ |>.mp (Path.Part.name.inj (List.singleton_inj.mp hlast))
  rw [Path.same_iff, h.parts_eq, h'.parts_eq, hfront, hstem]

/-! ## Files that are opened -/

/-- Reading source files, with the paths noted that are opened. -/
abbrev Noting := ExceptT Problem (StateM (List Path))

/-- What comes out, and the paths noted, those noted before in front. -/
def Noting.notes {α : Type} (x : Noting α) (opened : List Path) :
    Except Problem α × List Path :=
  x.run.run opened

theorem Noting.notes_bind {α β : Type} (x : Noting α) (f : α → Noting β) (opened : List Path) :
    (x >>= f).notes opened = match x.notes opened with
      | (.ok a, opened) => (f a).notes opened
      | (.error problem, opened) => (.error problem, opened) := by
  unfold notes ExceptT.run StateT.run
  simp only [bind, ExceptT.bind, ExceptT.mk, StateT.bind]
  cases x opened with
  | mk result opened => cases result <;> rfl

@[simp] theorem Noting.notes_pure {α : Type} (a : α) (opened : List Path) :
    (pure a : Noting α).notes opened = (.ok a, opened) := rfl

/-- Read a source file and note its path behind those opened before. -/
def FileTree.readNoting (t : FileTree) (p : Path) : Noting Go.SourceFile :=
  ExceptT.mk fun opened => (t.readSource p, opened ++ [p])

@[simp] theorem FileTree.notes_readNoting (t : FileTree) (p : Path) (opened : List Path) :
    (t.readNoting p).notes opened = (t.readSource p, opened ++ [p]) := rfl

namespace Triage

/-- The bundles of the failing tests of one file, however files are read. -/
def processWith {m : Type → Type} [Monad m] (g : Triage) (read : Path → m Go.SourceFile) (p : Path)
    (tests : List FailingTest) : m (List Bundle) := do
  let testFile ← read p
  let other := implementationPath p
  let implementation ← if other.same p then pure testFile else read other
  return tests.map (g.bundleFor · testFile implementation)

theorem processWith_readSource (g : Triage) (t : FileTree) (p : Path) (tests : List FailingTest) :
    g.processWith t.readSource p tests = g.processFile t p tests := rfl

/-- With the paths noted the same comes out. The file that is tested is opened if it is
another one than the test file, and that one can be used. -/
theorem notes_processWith (g : Triage) (t : FileTree) (p : Path) (tests : List FailingTest) :
    (g.processWith t.readNoting p tests).notes []
      = (g.processFile t p tests,
        if (t.readSource p).isOk && !(implementationPath p).same p then [p, implementationPath p]
        else [p]) := by
  rw [← processWith_readSource, processWith, Noting.notes_bind, FileTree.notes_readNoting,
    processWith]
  cases hread : t.readSource p with
  | error problem => rfl
  | ok testFile =>
      simp only
      cases hsame : (implementationPath p).same p with
      | true =>
          simp only [if_true, Noting.notes_bind, Noting.notes_pure]
          rfl
      | false =>
          simp only [Bool.false_eq_true, if_false, Noting.notes_bind, FileTree.notes_readNoting]
          cases t.readSource (implementationPath p) <;> rfl

end Triage

/-- **A test file stands beside the file it tests.** Just the paths whose last part is
the name of a test file lead to another file; it has the same parts in front and the
name without `_test`, so no other test file has it. All other paths stay as they are
written. A second file is opened for test files, once the first one could be used, and
for no other files. What stands at the end of the path and is no part does not
matter. -/
theorem implementationPath_pairs (p : Path) :
    ((implementationPath p).same p = false ↔ ∃ stem, p.IsTestOf stem)
      ∧ (∀ stem, p.IsTestOf stem →
        (implementationPath p).parts = p.parts.dropLast ++ [.name (stem ++ ".go")])
      ∧ ((∀ stem, ¬p.IsTestOf stem) → implementationPath p = p)
      ∧ (∀ q stem stem', p.IsTestOf stem → q.IsTestOf stem' →
        (implementationPath p).same (implementationPath q) = true → p.same q = true)
      ∧ (∀ (g : Triage) (t : FileTree) (tests : List FailingTest),
        let noted := (g.processWith t.readNoting p tests).notes []
        noted.1 = g.processFile t p tests
          ∧ ∀ file, t.Opens p file →
            ((∃ stem, p.IsTestOf stem) → noted.2 = [p, implementationPath p])
              ∧ ((∀ stem, ¬p.IsTestOf stem) → noted.2 = [p]))
      ∧ ∀ ending : String,
        (∀ segment ∈ Text.split '/' ending.toList, Path.isIdle segment = true) →
          ∀ stem, (⟨p.text ++ "/" ++ ending⟩ : Path).IsTestOf stem ↔ p.IsTestOf stem := by
  refine ⟨same_implementationPath, fun _ => parts_implementationPath,
    implementationPath_of_not_isTestOf, fun _ _ _ => same_of_same_implementationPath,
    fun g t tests => ?_, fun _ => Path.isTestOf_idleEnd⟩
  intro noted
  have hnoted : noted = _ := g.notes_processWith t p tests
  refine ⟨congrArg Prod.fst hnoted, fun file hfile => ?_⟩
  rw [FileTree.readSource_eq_ok.mpr hfile] at hnoted
  refine ⟨fun htest => ?_, fun hnone => ?_⟩
  · rw [hnoted, same_implementationPath.mpr htest]
    rfl
  · rw [hnoted, implementationPath_of_not_isTestOf hnone, Path.same_iff.mpr rfl]
    rfl

/-- Two spellings of one test file: one of them leads to the file that is tested, which
is opened, and tells the other. A path to a parent is left as it is. -/
theorem implementationPath_pairs_spelled :
    let p : Path := ⟨"pkg//./a_test.go"⟩
    let q : Path := ⟨"pkg/a_test.go/."⟩
    let g : Triage := { locator := { root := ⟨"."⟩ } }
    p.IsTestOf "a" ∧ q.IsTestOf "a"
      ∧ (implementationPath p).parts = p.parts.dropLast ++ [.name "a.go"]
      ∧ (implementationPath p).same (implementationPath q) = true ∧ p.same q = true
      ∧ (Triage.oneFile.readSource p).isOk = true
      ∧ ((g.processWith Triage.oneFile.readNoting p []).notes []).2 = [p, ⟨"pkg/a.go"⟩]
      ∧ (∀ stem, ¬(⟨"pkg/.."⟩ : Path).IsTestOf stem)
      ∧ implementationPath ⟨"pkg/.."⟩ = ⟨"pkg/.."⟩ := by
  intro p q g
  have hp : p.IsTestOf "a" := ⟨by decide, by decide⟩
  have hparent : ∀ stem, ¬(⟨"pkg/.."⟩ : Path).IsTestOf stem := fun stem h =>
    nomatch (show some Path.Part.parent = _ from h.last)
  have hreadable : (Triage.oneFile.readSource p).isOk = true := by decide +kernel
  have hsame : (implementationPath p).same (implementationPath q) = true := by decide
  obtain ⟨file, hfile⟩ : ∃ file, Triage.oneFile.Opens p file := by
    cases hread : Triage.oneFile.readSource p with
    | ok file => exact ⟨file, FileTree.readSource_eq_ok.mp hread⟩
    | error problem => rw [hread] at hreadable; cases hreadable
  have hq : q.IsTestOf "a" :=
    ((implementationPath_pairs ⟨"pkg/a_test.go"⟩).2.2.2.2.2 "." (by decide) "a").mpr
      ⟨by decide, by decide⟩
  obtain ⟨-, hparts, -, hunique, hopened, -⟩ := implementationPath_pairs p
  have hother : implementationPath p = ⟨"pkg/a.go"⟩ := by decide
  have hnoted := ((hopened g Triage.oneFile []).2 file hfile).1 ⟨"a", hp⟩
  rw [hother] at hnoted
  exact ⟨hp, hq, hparts "a" hp, hsame, hunique q "a" "a" hp hq hsame, hreadable, hnoted, hparent,
    (implementationPath_pairs ⟨"pkg/.."⟩).2.2.1 hparent⟩

end TestTriage
