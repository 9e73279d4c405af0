import TestTriage.Path

/-!
# Test files and the files they test

A test file stands beside the file it tests, and its name differs in the ending only.
-/

namespace TestTriage

/-- The text in front of an ending. -/
def beforeEnding? (ending cs : List Char) : Option (List Char) :=
  if ending.isSuffixOf cs then some (cs.take (cs.length - ending.length)) else none

/-- The file with the code that a test file tests: `s_test.go` tests `s.go`, and any other file
stands for itself. -/
def implementationPath (p : Path) : Path :=
  match p.fileName? with
  | none => p
  | some name =>
    match beforeEnding? "_test.go".toList name.toList with
    | none | some [] => p
    | some stem => p.withFileName (String.ofList (stem ++ ".go".toList))

end TestTriage
