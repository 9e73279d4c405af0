import TestTriage.Event
import TestTriage.Path

/-!
# Failing tests by file

An index has a slot for every file, in the order the files came in, and a slot lists the tests that
failed in its file, in the order they came in.  Files are told apart by the parts of their paths; a
slot shows the path it was made with.
-/

namespace TestTriage

/-- The failing tests of one file. -/
structure FileFailures where
  path : Path
  tests : List FailingTest
  deriving Repr, DecidableEq

structure FailureIndex where
  slots : List FileFailures
  /-- The slot of every file, by the parts of its path. -/
  positions : List (List Path.Part × Nat)
  deriving Repr, DecidableEq

namespace FailureIndex

def empty : FailureIndex := ⟨[], []⟩

instance : EmptyCollection FailureIndex := ⟨empty⟩

/-- The position of a file's slot. -/
def position? (index : FailureIndex) (p : Path) : Option Nat := index.positions.lookup p.parts

/-- The index with one more failing test. -/
def push (index : FailureIndex) (p : Path) (test : FailingTest) : FailureIndex :=
  match index.position? p with
  | some i =>
    { index with slots := index.slots.modify i fun s => { s with tests := s.tests ++ [test] } }
  | none =>
    { slots := index.slots ++ [⟨p, [test]⟩]
      positions := (p.parts, index.slots.length) :: index.positions }

/-- The index with more failing tests, each with its file. -/
def pushAll (index : FailureIndex) (tests : List (Path × FailingTest)) : FailureIndex :=
  tests.foldl (fun index (p, test) => index.push p test) index

/-- The failing tests of a file, if it has any. -/
def get? (index : FailureIndex) (p : Path) : Option (List FailingTest) := do
  let slot ← index.slots[← index.position? p]?
  return slot.tests

def isEmpty (index : FailureIndex) : Bool := index.slots.isEmpty

/-- The files, in order. -/
def files (index : FailureIndex) : List Path := index.slots.map (·.path)

def fileCount (index : FailureIndex) : Nat := index.slots.length

def testCount (index : FailureIndex) : Nat := index.slots.foldr (fun s n => s.tests.length + n) 0

end FailureIndex

end TestTriage
