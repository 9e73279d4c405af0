import TestTriage.Bundle
import TestTriage.Json.Quoted
import TestTriage.Json.Skip

/-!
# Bundles as JSON

A bundle is written as one object on one line; a file that is not known is left out.  It is read
from an object with its members in any order, or from a list of the fields' values.  Names and files
may be missing, the texts and the message may not, and members with other names are passed over.
-/

namespace TestTriage.Bundle

open TestTriage.Text (Bytes)
open TestTriage.Json (Read Fault atEnd faultBefore code skipSpace)

/-- The fields of a bundle. -/
inductive Field where
  | testName
  | fullTestName
  | testFile
  | implementationFile
  | testSources
  | dependencySources
  | testError
  deriving Repr, DecidableEq

namespace Field

/-- The fields in the order they are declared and written in. -/
def all : List Field :=
  [.testName, .fullTestName, .testFile, .implementationFile, .testSources, .dependencySources,
    .testError]

/-- The key of a field. -/
def key : Field → String
  | .testName => "test_name"
  | .fullTestName => "full_test_name"
  | .testFile => "test_file"
  | .implementationFile => "implementation_file"
  | .testSources => "test_sources"
  | .dependencySources => "dependency_sources"
  | .testError => "test_error"

def ofKey? (key : String) : Option Field := all.find? (·.key == key)

/-- Its place among the fields, counted from zero. -/
def index (f : Field) : Nat := all.idxOf f

end Field

/-! ## Writing -/

/-- A member of an object. -/
def written (f : Field) (value : String) : String := Json.quoted f.key ++ ":" ++ value

/-- The bundle as a JSON object. -/
def toJson (b : Bundle) : String :=
  let members :=
    [written .testName (Json.quoted b.testName), written .fullTestName (Json.quoted b.fullTestName)]
      ++ (b.testFile.map fun p => written .testFile (Json.quoted p.text)).toList
      ++ (b.implementationFile.map fun p =>
          written .implementationFile (Json.quoted p.text)).toList
      ++ [written .testSources (Json.quotedList b.testSources),
        written .dependencySources (Json.quotedList b.dependencySources),
        written .testError (Json.quoted b.testError)]
  "\x7b" ++ ",".intercalate members ++ "\x7d"

/-! ## Reading fields -/

/-- The fields read so far. -/
structure Gathered where
  testName : Option String := none
  fullTestName : Option String := none
  testFile : Option (Option Path) := none
  implementationFile : Option (Option Path) := none
  testSources : Option (List String) := none
  dependencySources : Option (List String) := none
  testError : Option String := none
  deriving Repr, DecidableEq

namespace Gathered

/-- Has the field been read? -/
def has (g : Gathered) : Field → Bool
  | .testName => g.testName.isSome
  | .fullTestName => g.fullTestName.isSome
  | .testFile => g.testFile.isSome
  | .implementationFile => g.implementationFile.isSome
  | .testSources => g.testSources.isSome
  | .dependencySources => g.dependencySources.isSome
  | .testError => g.testError.isSome

/-- The bundle, or the first field that must not be missing and is. -/
def bundle (g : Gathered) : Except Field Bundle :=
  match g.testSources, g.dependencySources, g.testError with
  | none, _, _ => .error .testSources
  | _, none, _ => .error .dependencySources
  | _, _, none => .error .testError
  | some testSources, some dependencySources, some testError =>
    .ok {
      testName := g.testName.getD ""
      fullTestName := g.fullTestName.getD ""
      testFile := g.testFile.join
      implementationFile := g.implementationFile.join
      testSources
      dependencySources
      testError }

end Gathered

/-- A string, or the complaint that something else stands there. -/
def stringValue (expected : String) : Read String := fun bs =>
  match skipSpace bs with
  | b :: rest => if b = code '"' then Json.string rest else Json.mismatch expected (b :: rest)
  | [] => atEnd .endInValue

/-- A list of strings. -/
def stringsValue : Read (List String) := fun bs =>
  match skipSpace bs with
  | b :: rest =>
    if b = code '[' then Json.items (stringValue "a string") (rest.length + 1) true rest
    else Json.mismatch "a sequence" (b :: rest)
  | [] => atEnd .endInValue

/-- A path, or nothing where `null` stands. -/
def pathValue : Read (Option Path) := fun bs =>
  match skipSpace bs with
  | b :: rest =>
    if b = code 'n' then do return (none, ← Json.word ['u', 'l', 'l'] rest)
    else do
      let (text, rest) ← stringValue "path string" (b :: rest)
      return (some ⟨text⟩, rest)
  | [] => atEnd .endInValue

/-- The value of a field, put with the others. -/
def Field.value (f : Field) (g : Gathered) (bs : Bytes) : Except Fault (Gathered × Bytes) :=
  match f with
  | .testName =>
    (stringValue "a string" bs).map fun (s, rest) => ({ g with testName := some s }, rest)
  | .fullTestName =>
    (stringValue "a string" bs).map fun (s, rest) => ({ g with fullTestName := some s }, rest)
  | .testFile => (pathValue bs).map fun (p, rest) => ({ g with testFile := some p }, rest)
  | .implementationFile =>
    (pathValue bs).map fun (p, rest) => ({ g with implementationFile := some p }, rest)
  | .testSources =>
    (stringsValue bs).map fun (ss, rest) => ({ g with testSources := some ss }, rest)
  | .dependencySources =>
    (stringsValue bs).map fun (ss, rest) => ({ g with dependencySources := some ss }, rest)
  | .testError =>
    (stringValue "a string" bs).map fun (s, rest) => ({ g with testError := some s }, rest)

/-! ## Reading bundles -/

/-- One member of an object: a field that has not been read yet, or something else, which is passed
over. -/
def member (g : Gathered) (key : String) : Read Gathered := fun bs =>
  match Field.ofKey? key with
  | none => do return (g, ← Json.skip (← Json.colon bs))
  | some f =>
    if g.has f then
      -- the place of the fault is behind the space, and behind a closing brace
      match skipSpace bs with
      | b :: rest =>
        faultBefore (.duplicateField key) (if b = code '\x7d' then rest else b :: rest)
      | [] => atEnd (.duplicateField key)
    else do f.value g (← Json.colon bs)

/-- The values of some fields in a list, up to its closing bracket. -/
def listed : List Field → (first : Bool) → Gathered → Read Gathered
  | [], _, g, bs =>
    match skipSpace bs with
    | [] => atEnd .endInList
    | b :: rest =>
      if b = code ']' then .ok (g, rest)
      else if b = code ',' then
        match skipSpace rest with
        | [] => atEnd .trailingCharacters
        | c :: behind =>
          faultBefore (if c = code ']' then .trailingComma else .trailingCharacters) behind
      else faultBefore .trailingCharacters rest
  | f :: fs, first, g, bs => do
    match ← Json.next first bs with
    | .close rest => return (g, rest)
    | .item bs =>
      let (g, rest) ← f.value g bs
      listed fs false g rest

/-- A bundle from an object or a list. -/
def ofValue : Read Bundle := fun bs =>
  match skipSpace bs with
  | [] => atEnd .endInValue
  | b :: rest =>
    if b = code '\x7b' then do
      let (g, rest) ← Json.members member (rest.length + 1) true {} rest
      match g.bundle with
      | .ok bundle => return (bundle, rest)
      | .error f => faultBefore (.missingField f.key) rest
    else if b = code '[' then do
      let (g, rest) ← listed Field.all true {} rest
      match g.bundle with
      | .ok bundle => return (bundle, rest)
      | .error f => faultBefore (.wrongLength f.index "struct Bundle with 7 elements") rest
    else Json.mismatch "struct Bundle" (b :: rest)

/-- The bundle that a whole text is. -/
def ofJson (text : Bytes) : Except Json.Error Bundle := Json.whole ofValue text

end TestTriage.Bundle
