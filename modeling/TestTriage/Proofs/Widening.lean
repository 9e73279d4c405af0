import TestTriage.Proofs.Bundling

/-!
# Following calls adds texts and nothing else

A file is triaged twice, once with what the tests call themselves and once
with calls followed. The two runs read the same files and find the same
tests, so they fail together or yield bundles for the same tests
(`processFile_widens`). What the followed names add to a bundle comes in
between the texts that were there: the declarations that were picked by
fewer names are some of those that are picked by more, in the order of the
file (`declarationsIn_sublist`).

Nothing is left to follow behind that. The names that calls lead to are
closed under calls, so a first round adds nothing to them, and the loop
ends with the set it began with (`expand_expand`).
-/

namespace TestTriage

/-! ## Names that nothing can be added to -/

namespace Go.SourceFile

variable {f : SourceFile} {names names' : NameSet}

/-- A round adds nothing to names that are closed under calls. -/
theorem round_of_closed
    (h : ∀ d n, names.contains d = true → f.Calls d n → names.contains n = true) :
    f.round names = names := by
  refine NameSet.insertAll_of_contains fun n hn => ?_
  obtain ⟨d, hd, hcalls⟩ := contains_called.mp (NameSet.contains_iff.mpr hn)
  exact h d n hd hcalls

theorem expand_of_closed
    (h : ∀ d n, names.contains d = true → f.Calls d n → names.contains n = true) :
    f.expand names = names := by
  have hround := round_of_closed h
  rw [expand, CallTable.expandWithin, expandOnce_eq_round, if_pos (congrArg _ hround), hround]

/-- Expanding again changes nothing. -/
theorem expand_expand (f : SourceFile) (names : NameSet) :
    f.expand (f.expand names) = f.expand names := by
  refine expand_of_closed fun d n hd hcalls => ?_
  obtain ⟨c, hc, hchain⟩ := contains_expand.mp hd
  exact contains_expand.mpr ⟨c, hc, hchain.tail hcalls⟩

theorem contains_expand_of_contains {n : String} (h : names.contains n = true) :
    (f.expand names).contains n = true :=
  contains_expand.mpr ⟨n, h, .refl⟩

/-- More names pick more declarations, in the same order. -/
theorem declarationsIn_sublist (f : SourceFile)
    (h : ∀ n, names.contains n = true → names'.contains n = true) :
    (f.declarationsIn names).Sublist (f.declarationsIn names') :=
  List.monotone_filter_right _ fun d => h d.name

end Go.SourceFile

/-! ## Two runs -/

/-- The second bundle has dependencies in between those of the first, and is the same in all
else. -/
structure Bundle.Widens (b b' : Bundle) : Prop where
  same : { b with dependencySources := b'.dependencySources } = b'
  sources : b.dependencySources.Sublist b'.dependencySources

namespace Triage

/-- The same problem, or bundles of which the second ones have more dependencies. -/
inductive Widens : Except Problem (List Bundle) → Except Problem (List Bundle) → Prop where
  | error (problem : Problem) : Widens (.error problem) (.error problem)
  | ok {bundles bundles' : List Bundle} (h : List.Forall₂ Bundle.Widens bundles bundles') :
      Widens (.ok bundles) (.ok bundles')

/-- The triage with what the tests call themselves. -/
def direct (g : Triage) : Triage := { g with transitive := false }

/-- The triage with calls followed. -/
def following (g : Triage) : Triage := { g with transitive := true }

theorem dependenciesOf_following (g : Triage) (tests : List Go.Declaration)
    (implementation : Go.SourceFile) :
    g.following.dependenciesOf tests implementation
      = implementation.expand (g.direct.dependenciesOf tests implementation) := rfl

theorem bundleFor_widens (g : Triage) (test : FailingTest)
    (testFile implementation : Go.SourceFile) :
    (g.direct.bundleFor test testFile implementation).Widens
      (g.following.bundleFor test testFile implementation) := by
  refine ⟨rfl, List.Sublist.map _ (implementation.declarationsIn_sublist fun n hn => ?_)⟩
  rw [dependenciesOf_following]
  exact Go.SourceFile.contains_expand_of_contains hn

/-- **Following calls adds texts and nothing else.** With calls followed a file fails just
if it fails without, and with the same problem. Otherwise there are as many bundles, and
each has what it has without, but for the texts of what is called, which are some of those
that it has. Following the calls of the names once more changes nothing. -/
theorem processFile_widens (g : Triage) (t : FileTree) (p : Path) (tests : List FailingTest) :
    Widens (g.direct.processFile t p tests) (g.following.processFile t p tests)
      ∧ ∀ ds implementation,
          implementation.expand (g.following.dependenciesOf ds implementation)
            = g.following.dependenciesOf ds implementation := by
  refine ⟨?_, fun ds implementation => implementation.expand_expand _⟩
  rw [processFile_eq, processFile_eq]
  cases t.readSource p with
  | error problem => exact .error problem
  | ok testFile =>
      cases t.readSource (implementationPath p) with
      | error problem => exact .error problem
      | ok implementation =>
          refine .ok (List.forall₂_map_left_iff.mpr (List.forall₂_map_right_iff.mpr ?_))
          exact List.forall₂_same.mpr fun test _ => g.bundleFor_widens test testFile implementation

end Triage

end TestTriage
