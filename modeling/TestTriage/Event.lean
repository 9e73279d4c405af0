/-!
# Test events

One record of a test run's feed: what happened, to which test of which package, and what it printed.
A field the record lacks is the empty text.
-/

namespace TestTriage

/-- What an event says about a test. -/
inductive Action where
  | start
  | run
  | pause
  | cont
  | pass
  | bench
  | fail
  | output
  | skip
  /-- Missing or unknown; such events carry no meaning here. -/
  | other
  deriving Repr, DecidableEq

/-- The action that a tag of the feed names. -/
def Action.ofTag (tag : String) : Action :=
  if tag = "start" then .start
  else if tag = "run" then .run
  else if tag = "pause" then .pause
  else if tag = "cont" then .cont
  else if tag = "pass" then .pass
  else if tag = "bench" then .bench
  else if tag = "fail" then .fail
  else if tag = "output" then .output
  else if tag = "skip" then .skip
  else .other

/-- A record of the feed. -/
structure Event where
  tag : String
  test : String
  output : String
  package : String
  deriving Repr, DecidableEq

namespace Event

def action (e : Event) : Action := .ofTag e.tag

/-- Does the event say of a test that it failed?  A package fails without naming a test. -/
def isFailMarker (e : Event) : Bool := e.action == .fail && !e.test.isEmpty

end Event

/-! ## Test identities -/

/-- The name of the test function that a test belongs to: subtests add a slash and their own
name. -/
def topLevelName (test : String) : String :=
  String.ofList (test.toList.takeWhile (· != '/'))

/-- A test that failed, with the first message it printed.  The name of its test function is not
kept beside its identity: it is always the part of the identity in front of the first slash, and so
it is computed (`FailingTest.name`). -/
structure FailingTest where
  /-- The identity of the test, subtests included. -/
  fullName : String
  error : String
  deriving Repr, DecidableEq

namespace FailingTest

/-- The test function. -/
def name (t : FailingTest) : String := topLevelName t.fullName

def isSubtest (t : FailingTest) : Bool := t.name != t.fullName

end FailingTest

end TestTriage
