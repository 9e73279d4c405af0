import TestTriage.FailureIndex
import TestTriage.Text.WhiteSpace

/-!
# Attributing failures to files

A failing test says where and why it failed in what it prints before or after its fail marker.  The
first output of the test that holds `.ext:` names the file, and the first that holds `: ` gives the
message.  Both are looked up in one pass over the events, and then every fail marker is put under
its file.  A marker without a file is dropped.
-/

namespace TestTriage

/-! ## Text around a mark -/

/-- The text in front of the first place where a mark stands, and the text behind the mark. -/
def splitAtMark? (mark : List Char) : List Char → Option (List Char × List Char)
  | [] => if mark.isEmpty then some ([], []) else none
  | c :: cs =>
    if mark.isPrefixOf (c :: cs) then some ([], (c :: cs).drop mark.length)
    else (splitAtMark? mark cs).map fun (before, behind) => (c :: before, behind)

/-- The message in an output: what stands behind its first `: `, without the ends of lines after
it. -/
def errorMessage? (output : String) : Option String :=
  (splitAtMark? [':', ' '] output.toList).map fun (_, message) =>
    String.ofList (Text.dropEndWhile (fun c => c == '\n' || c == '\r') message)

/-- Attributes failures to files of one kind. -/
structure Correlator where
  /-- The ending of file names, without its dot. -/
  extension : String := "go"
  deriving Repr, DecidableEq

namespace Correlator

/-- What stands behind a file's name without its ending, where an output names a place in it. -/
def mark (c : Correlator) : List Char := '.' :: c.extension.toList ++ [':']

/-- The file that an output names. -/
def fileName? (c : Correlator) (output : String) : Option String :=
  (splitAtMark? c.mark output.toList).map fun (stem, _) =>
    String.ofList (Text.trim stem ++ '.' :: c.extension.toList)

/-! ## First outputs -/

/-- What the first outputs of every test have told so far. -/
structure Clues where
  files : List (String × String)
  messages : List (String × String)
  deriving Repr, DecidableEq

/-- An association list with a value for a key that had none. -/
def noteFirst (key : String) (value : Option String) (notes : List (String × String)) :
    List (String × String) :=
  match notes.lookup key, value with
  | none, some v => (key, v) :: notes
  | _, _ => notes

/-- The clues with those of one more event. -/
def Clues.add (c : Correlator) (clues : Clues) (e : Event) : Clues :=
  if e.test.isEmpty then clues
  else
    { files := noteFirst e.test (c.fileName? e.output) clues.files
      messages := noteFirst e.test (errorMessage? e.output) clues.messages }

/-- The clues of some events. -/
def clues (c : Correlator) (events : List Event) : Clues :=
  events.foldl (Clues.add c) ⟨[], []⟩

/-! ## The index -/

/-- The index with the failure that a marker tells of, if its file is known. -/
def indexMarker (clues : Clues) (index : FailureIndex) (marker : Event) : FailureIndex :=
  match clues.files.lookup marker.test with
  | none => index
  | some file => index.push ⟨file⟩ ⟨marker.test, (clues.messages.lookup marker.test).getD ""⟩

/-- The failing tests of some events by file. -/
def correlate (c : Correlator) (events : List Event) : FailureIndex :=
  (events.filter Event.isFailMarker).foldl (indexMarker (c.clues events)) ∅

end Correlator

end TestTriage
