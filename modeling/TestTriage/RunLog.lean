import TestTriage.Correlation
import TestTriage.Log
import TestTriage.Settings
import TestTriage.Triage

/-!
# What a run tells

The log entries of every stage of a run, in the order in which the stage does its work.  The stages
themselves know nothing of them.
-/

namespace TestTriage

/-! ## Settings and correlation -/

/-- One entry for every settings file that is read, up to one that cannot be. -/
def Settings.log (t : FileTree) : List Path → List Log.Entry
  | [] => []
  | p :: ps =>
    if t.isFile p then
      .ofTexts .debug "gofix::config" "applying config layer" [("path", p.text)]
        :: match SettingsLayer.read t p with
          | .ok _ => log t ps
          | .error _ => []
    else log t ps

/-- One entry for every fail marker that is dropped, and then the counts. -/
def Correlator.log (c : Correlator) (events : List Event) : List Log.Entry :=
  let markers := events.filter Event.isFailMarker
  let files := (c.clues events).files
  let index := c.correlate events
  (markers.filter fun e => (files.lookup e.test).isNone).map (fun e =>
      .ofTexts .debug "gofix::correlate" "dropping failure with no source location"
        [("test", e.test)])
    ++ [⟨.info, "gofix::correlate", "correlated test failures",
      [("events", .number events.length), ("fail_markers", .number markers.length),
        ("failing_tests", .number index.testCount), ("files", .number index.fileCount)]⟩]

/-! ## Resolution -/

/-- One entry for everything unreadable that a lookup passes over, and one for what it finds. -/
def Locator.log (l : Locator) (reported : Path) : List Sight → List Log.Entry
  | [] => []
  | .unreadable names fault :: others =>
    .ofTexts .debug "gofix::locate" "skipping unreadable entry"
        [("error", Problem.walkMessage (l.below names) fault)]
      :: l.log reported others
  | .file names :: others =>
    if (l.below names).endsWith reported then
      [.ofTexts .debug "gofix::locate" "located source file"
        [("file_name", reported.text), ("path", (l.below names).text)]]
    else l.log reported others

/-- The entries of every lookup, and one for every file that was found before. -/
def Triage.resolveLog (g : Triage) (t : FileTree) :
    (found : List (List Path.Part)) → List FileFailures → List Log.Entry
  | _, [] => []
  | found, s :: ss =>
    let lookup := (g.locator.sights t).toOption.elim [] (g.locator.log s.path)
    match g.locator.locate t s.path with
    | .error _ => lookup ++ resolveLog g t found ss
    | .ok p =>
      lookup
        ++ (if found.contains p.parts then
            [.ofTexts .debug "gofix::correlate" "merging failures that resolve to the same file"
              [("reported", s.path.text), ("path", p.text)]]
          else [])
        ++ resolveLog g t (p.parts :: found) ss

/-! ## Triage -/

/-- A warning if the test is not there, and how many names it depends on. -/
def Triage.bundleLog (g : Triage) (test : FailingTest) (testFile implementation : Go.SourceFile) :
    List Log.Entry :=
  let tests := testFile.testsNamed g.naming test.name
  (if tests.isEmpty then
      [.ofTexts .warn "gofix::pipeline" "no test declaration found for failing test"
        [("test", test.fullName), ("path", testFile.path.text)]]
    else [])
    ++ [⟨.debug, "gofix::pipeline", "extracted dependencies",
      [("test", .text test.name),
        ("dependencies", .number (g.dependenciesOf tests implementation).size)]⟩]

/-- One entry for a test file that is read, and those of its tests if the file it tests is read
too. -/
def Triage.processLog (g : Triage) (t : FileTree) (slot : ResolvedSlot) : List Log.Entry :=
  match slot.located with
  | .error _ => []
  | .ok found =>
    match t.readSource found.path with
    | .error _ => []
    | .ok testFile =>
      let other := implementationPath found.path
      let implementation :=
        if other.same found.path then .ok testFile else t.readSource other
      ⟨.debug, "gofix::pipeline", "parsed test file",
          [("path", .text found.path.text), ("declarations", .number testFile.declarations.length)]⟩
        :: match implementation with
          | .error _ => []
          | .ok implementation => found.tests.flatMap (g.bundleLog · testFile implementation)

/-- The entries of all slots that are processed: those that outcomes came from, or all of them if
they are processed at once. -/
def Triage.runLog (g : Triage) (t : FileTree) (slots : List ResolvedSlot) : List Log.Entry :=
  let processed := if g.parallel then slots else slots.take (g.runResolved t slots).length
  processed.flatMap (g.processLog t)

/-- An entry for a file that failed. -/
def FileOutcome.log (o : FileOutcome) : List Log.Entry :=
  match o.result with
  | .ok _ => []
  | .error problem =>
    [.ofTexts .error "gofix" "failed to process file"
      [("file", o.file.text), ("error", problem.message)]]

end TestTriage
