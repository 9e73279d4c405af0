import TestTriage.Event
import TestTriage.Path

/-!
# Bundles

What is handed on about a failing test: its source, the source of what it calls, and its message.
-/

namespace TestTriage

structure Bundle where
  /-- The test function. -/
  testName : String
  /-- The identity of the test, subtests included. -/
  fullTestName : String
  /-- The file the test stands in. -/
  testFile : Option Path
  /-- The file that what it calls stands in. -/
  implementationFile : Option Path
  /-- The text of the test, in file order. -/
  testSources : List String
  /-- The texts of what it calls, in file order. -/
  dependencySources : List String
  testError : String
  deriving Repr, DecidableEq

namespace Bundle

/-- The bundle of a failing test with the texts that belong to it. -/
def ofTest (test : FailingTest) (testSources dependencySources : List String) : Bundle where
  testName := test.name
  fullTestName := test.fullName
  testFile := none
  implementationFile := none
  testSources
  dependencySources
  testError := test.error

/-- The bundle with the files that its texts come from. -/
def withFiles (b : Bundle) (testFile implementationFile : Path) : Bundle :=
  { b with testFile := some testFile, implementationFile := some implementationFile }

/-- Was no text found for the test? -/
def isMissingTestSource (b : Bundle) : Bool := b.testSources.isEmpty

/-! ## Showing bundles -/

/-- One line: file, test, the number of texts, message. -/
def summary (b : Bundle) : String :=
  (b.testFile.map (·.text)).getD "" ++ "\t" ++ b.fullTestName
    ++ "\t" ++ toString b.testSources.length ++ " test decl(s)"
    ++ "\t" ++ toString b.dependencySources.length ++ " dependency decl(s)"
    ++ "\t" ++ b.testError

/-- What the repair prompt says first. -/
def instructions : String :=
  "You are part of an elite automated software fixing team. "
    ++ "You will be given the code of a failing test, the code it calls, and the failing test "
    ++ "output.\n\n"
    ++ "Please explain why the test is failing (either the test code or the function code is "
    ++ "wrong) and how to fix it. Generally bias towards assuming the test code is correct and the "
    ++ "function code is what needs to be fixed.\n"
    ++ "Assume that comments correctly describe the desired functionality of the function.\n\n"
    ++ "You should recommend specific code changes if possible."

/-- Texts between fences that mark them as Go code. -/
def fenced (sources : List String) : String :=
  "\n".intercalate ("```go" :: sources ++ ["```"])

/-- The prompt that asks for a repair. -/
def prompt (b : Bundle) : String :=
  instructions
    ++ (if b.fullTestName.isEmpty then "" else "\n\nFailing Test: " ++ b.fullTestName)
    ++ "\n\nTest Code:\n" ++ fenced b.testSources
    ++ "\n\nFunction Code:\n" ++ fenced b.dependencySources
    ++ "\nTest Error: " ++ b.testError
    ++ "\n\nYour explanation and recommended changes:"

end Bundle

end TestTriage
