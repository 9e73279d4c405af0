import TestTriage.Event
import TestTriage.Json.Reader
import TestTriage.Problem

/-!
# The feed of a test run

A feed is a list of lines, each of them a JSON object.  A member that an event needs and that is
missing or no string is read as the empty text.  Lines of white space are skipped but counted, and
the first line that is no object ends the reading.
-/

namespace TestTriage

open Text (Bytes)

namespace Event

/-- The string at a key, empty if there is none. -/
def field (members : List (String × Json.Value)) (key : String) : String :=
  ((Json.Value.get? key members).bind Json.Value.string?).getD ""

/-- The event that the members of an object tell of. -/
def ofMembers (members : List (String × Json.Value)) : Event where
  tag := field members "Action"
  test := field members "Test"
  output := field members "Output"
  package := field members "Package"

end Event

namespace Feed

def newline : UInt8 := 10

/-- The pieces of a feed between newlines.  No line begins behind a newline at the end. -/
def lines : Bytes → List Bytes
  | [] => []
  | b :: bs =>
    if b = newline then [] :: lines bs
    else match lines bs with
      | [] => [[b]]
      | l :: ls => (b :: l) :: ls

/-- White space: tab, newline, form feed, carriage return and space. -/
def isSpace (b : UInt8) : Bool := b == 9 || b == 10 || b == 12 || b == 13 || b == 32

def isBlank (line : Bytes) : Bool := line.all isSpace

/-- The events on some lines, of which so many stand in front. -/
def eventsBehind : (before : Nat) → List Bytes → Except Problem (List Event)
  | _, [] => return []
  | before, l :: ls =>
    if isBlank l then eventsBehind (before + 1) ls
    else match Json.readObject l with
      | .error e => throw (.malformedEvent (before + 1) e)
      | .ok members => return .ofMembers members :: (← eventsBehind (before + 1) ls)

/-- The events of a feed, in its order. -/
def events (feed : Bytes) : Except Problem (List Event) := eventsBehind 0 (lines feed)

end Feed

end TestTriage
