import TestTriage.Go.Declaration
import TestTriage.Go.Diagnosis
import TestTriage.Go.Calls
import TestTriage.NameSet
import TestTriage.Path

/-!
# Source files

A source file that has been read, and the questions put to it: which declarations it has, which of
them are tests, and which names they call.
-/

namespace TestTriage.Go

/-- A source file that has been read. -/
structure SourceFile where
  path : Path
  text : String
  pieces : List Piece

namespace SourceFile

/-- Read a text as a source file. -/
def read (path : Path) (text : String) : Except Diagnosis SourceFile :=
  let ls := lexemes text
  match Go.pieces ls with
  | .ok pieces => .ok { path, text, pieces }
  | .error refusal => .error (diagnose ls refusal)

/-- Size of the file in bytes. -/
def bytes (f : SourceFile) : Nat := f.text.utf8ByteSize

/-- The functions and methods of the file, in order. -/
def declarations (f : SourceFile) : List Declaration := Go.declarations f.pieces

end SourceFile

/-! ## Tests -/

/-- The rule that tells tests from other declarations: their names begin in the same way. -/
structure TestNaming where
  beginning : String := "Test"
  deriving Repr, DecidableEq

namespace TestNaming

def isTestName (naming : TestNaming) (name : String) : Bool :=
  naming.beginning.toList.isPrefixOf name.toList

def isTest (naming : TestNaming) (d : Declaration) : Bool := naming.isTestName d.name

end TestNaming

namespace SourceFile

/-- The tests of exactly this name. -/
def testsNamed (f : SourceFile) (naming : TestNaming) (name : String) : List Declaration :=
  f.declarations.filter fun d => naming.isTest d && d.name == name

/-- The declarations whose names are in the set, in file order. -/
def declarationsIn (f : SourceFile) (names : NameSet) : List Declaration :=
  f.declarations.filter fun d => names.contains d.name

end SourceFile

/-! ## Dependencies -/

/-- The names a declaration calls, in the order of its text. -/
def Declaration.callTargets (d : Declaration) : List String := d.tree.callTargets

/-- The names some declarations call. -/
def dependencies (ds : List Declaration) : NameSet :=
  .ofList (ds.flatMap Declaration.callTargets)

/-- What declarations call, by their names. -/
abbrev CallTable := List (String × List String)

namespace CallTable

/-- The names that the declarations with some names call. -/
def calledFrom (t : CallTable) (names : NameSet) : NameSet :=
  .ofList ((t.filter fun (name, _) => names.contains name).flatMap (·.2))

/-- The names with those called by the declarations they name. -/
def expandOnce (t : CallTable) (names : NameSet) : NameSet := names.union (t.calledFrom names)

/-- `expandOnce` over and over, at most so many times, until a round adds nothing. -/
def expandWithin (t : CallTable) : (rounds : Nat) → NameSet → NameSet
  | 0, names => names
  | rounds + 1, names =>
    let next := t.expandOnce names
    if next.size = names.size then next else t.expandWithin rounds next

end CallTable

namespace SourceFile

/-- What the declarations of a file call. -/
def callTable (f : SourceFile) : CallTable := f.declarations.map fun d => (d.name, d.callTargets)

/-- The names that can be reached from some names through the calls in the file.  Each round but the
last adds a name that the file calls, which bounds their number. -/
def expand (f : SourceFile) (names : NameSet) : NameSet :=
  f.callTable.expandWithin ((dependencies f.declarations).size + 1) names

end SourceFile

end TestTriage.Go
