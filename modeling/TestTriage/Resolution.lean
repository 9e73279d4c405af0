import TestTriage.FailureIndex
import TestTriage.Problem

/-!
# Resolving reported files

Every file of an index is looked up.  Reported files that turn out to be the same one are merged:
the tests of the later ones go to the slot of the first.  A file that cannot be found keeps its
place, with the problem.
-/

namespace TestTriage

/-- A slot of an index whose file has been looked up. -/
structure ResolvedSlot where
  /-- The file as the feed reports it; the first one, if several were merged. -/
  reported : Path
  located : Except Problem FileFailures

namespace ResolvedSlot

/-- The slot with more failing tests, if its file was found. -/
def extend (s : ResolvedSlot) (tests : List FailingTest) : ResolvedSlot :=
  { s with located := s.located.map fun f => { f with tests := f.tests ++ tests } }

end ResolvedSlot

/-- Resolved slots, and where the slot of every found file is, by the parts of its path. -/
structure Merge where
  slots : List ResolvedSlot
  positions : List (List Path.Part × Nat)

namespace Merge

def empty : Merge := ⟨[], []⟩

/-- The slots with one more. -/
def add (locate : Path → Except Problem Path) (m : Merge) (slot : FileFailures) : Merge :=
  match locate slot.path with
  | .error problem => { m with slots := m.slots ++ [⟨slot.path, .error problem⟩] }
  | .ok path =>
    match m.positions.lookup path.parts with
    | some i => { m with slots := m.slots.modify i (·.extend slot.tests) }
    | none =>
      { slots := m.slots ++ [⟨slot.path, .ok ⟨path, slot.tests⟩⟩]
        positions := (path.parts, m.slots.length) :: m.positions }

end Merge

namespace FailureIndex

/-- The slots of an index with their files looked up. -/
def resolveEach (index : FailureIndex) (locate : Path → Except Problem Path) : List ResolvedSlot :=
  (index.slots.foldl (Merge.add locate) .empty).slots

/-- The failing tests of some resolved slots, each with its file; the first problem if there is
one. -/
def locatedTests : List ResolvedSlot → Except Problem (List (Path × FailingTest))
  | [] => return []
  | s :: ss => do
    let found ← s.located
    return found.tests.map (found.path, ·) ++ (← locatedTests ss)

/-- The index with every file looked up, or the first problem. -/
def resolve (index : FailureIndex) (locate : Path → Except Problem Path) :
    Except Problem FailureIndex := do
  return pushAll ∅ (← locatedTests (index.resolveEach locate))

end FailureIndex

end TestTriage
