import TestTriage.Bundle
import TestTriage.Go.SourceFile
import TestTriage.Locate
import TestTriage.Pairing
import TestTriage.Resolution

/-!
# Triage

Every file with failing tests is looked up, read together with the file it tests, and searched for
the tests and what they call; each failing test yields a bundle.  Files do not depend on each other.
Unless the run is to keep going, it ends with the first file that fails.
-/

namespace TestTriage

/-- The source file that a path leads to. -/
def FileTree.readSource (t : FileTree) (p : Path) : Except Problem Go.SourceFile :=
  match t.readText p with
  | .error fault => .error (.unreadableSource p fault)
  | .ok text =>
    match Go.SourceFile.read p text with
    | .error diagnosis => .error (.brokenSource p diagnosis)
    | .ok f => .ok f

/-- How files are triaged. -/
structure Triage where
  locator : Locator
  naming : Go.TestNaming := {}
  /-- Are calls followed within the file that is tested? -/
  transitive : Bool := false
  /-- Are files gone on with after one that failed? -/
  keepGoing : Bool := false
  /-- Are all files processed at the same time? -/
  parallel : Bool := false

/-- What came out for one file. -/
structure FileOutcome where
  /-- The file as the feed reports it. -/
  file : Path
  /-- Where it was found. -/
  path : Option Path
  result : Except Problem (List Bundle)

namespace FileOutcome

def isOk (o : FileOutcome) : Bool := o.result.isOk

/-- The bundles, none if the file failed. -/
def bundles (o : FileOutcome) : List Bundle :=
  match o.result with
  | .ok bs => bs
  | .error _ => []

end FileOutcome

namespace Triage

/-! ## One file -/

/-- The names that a test's declarations call, and those reached from them if calls are followed. -/
def dependenciesOf (g : Triage) (tests : List Go.Declaration) (implementation : Go.SourceFile) :
    NameSet :=
  let names := Go.dependencies tests
  if g.transitive then implementation.expand names else names

/-- The bundle of a failing test, from the file it stands in and the file that is tested. -/
def bundleFor (g : Triage) (test : FailingTest) (testFile implementation : Go.SourceFile) :
    Bundle :=
  let tests := testFile.testsNamed g.naming test.name
  let names := g.dependenciesOf tests implementation
  (Bundle.ofTest test (tests.map (·.text)) ((implementation.declarationsIn names).map (·.text)))
    |>.withFiles testFile.path implementation.path

/-- The bundles of the failing tests of one file. -/
def processFile (g : Triage) (t : FileTree) (p : Path) (tests : List FailingTest) :
    Except Problem (List Bundle) := do
  let testFile ← t.readSource p
  let other := implementationPath p
  let implementation ← if other.same p then pure testFile else t.readSource other
  return tests.map (g.bundleFor · testFile implementation)

/-- What comes out for one slot. -/
def process (g : Triage) (t : FileTree) (slot : ResolvedSlot) : FileOutcome :=
  match slot.located with
  | .ok found => ⟨slot.reported, some found.path, g.processFile t found.path found.tests⟩
  | .error problem => ⟨slot.reported, none, .error problem⟩

/-! ## All files -/

/-- The outcomes up to the first one that failed. -/
def untilFailure : List FileOutcome → List FileOutcome
  | [] => []
  | o :: os => if o.isOk then o :: untilFailure os else [o]

/-- One file after the other; unless the run keeps going, no file is touched behind one that
fails. -/
def inTurn (g : Triage) (t : FileTree) : List ResolvedSlot → List FileOutcome
  | [] => []
  | s :: ss =>
    let o := g.process t s
    if o.isOk || g.keepGoing then o :: g.inTurn t ss else [o]

/-- All files at once, the outcomes in the order of the slots. -/
def atOnce (g : Triage) (t : FileTree) (slots : List ResolvedSlot) : List FileOutcome :=
  slots.map (g.process t)

/-- What comes out for some slots. -/
def runResolved (g : Triage) (t : FileTree) (slots : List ResolvedSlot) : List FileOutcome :=
  let outcomes := if g.parallel then g.atOnce t slots else g.inTurn t slots
  if g.keepGoing then outcomes else untilFailure outcomes

/-- The slots of an index with their files looked up. -/
def resolve (g : Triage) (t : FileTree) (index : FailureIndex) : List ResolvedSlot :=
  index.resolveEach (g.locator.locate t)

/-- What comes out for an index. -/
def run (g : Triage) (t : FileTree) (index : FailureIndex) : List FileOutcome :=
  g.runResolved t (g.resolve t index)

end Triage

end TestTriage
