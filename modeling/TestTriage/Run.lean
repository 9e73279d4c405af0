import TestTriage.Bundle.Json
import TestTriage.CommandLine
import TestTriage.Feed
import TestTriage.RunLog

/-!
# Runs

A run as a function: from arguments, files and a feed to what is printed and whether all went well.
Bundles go to the one channel, and the list of files, problems and log entries to the other.
-/

namespace TestTriage

/-- What a run finds around it. -/
structure Surroundings where
  tree : FileTree
  /-- The user's settings file. -/
  userSettings : Option Path
  /-- The description of the log filter, if the user gives one. -/
  logFilter : Option String
  /-- The feed, unless the arguments name a file with it. -/
  input : ByteArray

/-- What goes to the channel for messages. -/
inductive Notice where
  | text (text : String)
  | log (entry : Log.Entry)
  deriving Repr, DecidableEq

/-- What a run yields. -/
structure Report where
  exitCode : Nat
  output : String
  notices : List Notice
  deriving Repr, DecidableEq

/-- How log entries are written. -/
inductive LogFormat where
  | json
  | plain
  deriving Repr, DecidableEq

/-- What a notice looks like on its channel. -/
def Notice.render (format : LogFormat) : Notice → String
  | .text s => s
  | .log entry => (match format with
    | .json => entry.toJson
    | .plain => entry.line) ++ "\n"

/-! ## Failures -/

/-- A text with every line but the first indented. -/
def indented (indent : String) (text : String) : String :=
  ("\n" ++ indent).intercalate ((Text.split '\n' text.toList).map String.ofList)

/-- One of several causes. -/
def numberedCause (number : Nat) (cause : String) : String :=
  let digits := toString number
  "\n" ++ String.ofList (List.replicate (5 - digits.length) ' ') ++ digits ++ ": "
    ++ indented "       " cause

/-- The causes behind a message: one is only indented, several are numbered. -/
def causeLines : List String → String
  | [] => ""
  | [cause] => "\n\nCaused by:\n    " ++ indented "    " cause
  | causes =>
    "\n\nCaused by:" ++ String.join (causes.zipIdx.map fun (cause, n) => numberedCause n cause)

/-- How a run that failed says why. -/
def failureText (message : String) (causes : List String) : String :=
  "Error: " ++ message ++ causeLines causes ++ "\n"

/-- How a run says why one step failed, and for which purpose the step was done. -/
def Problem.inContext (purpose : String) (p : Problem) : String :=
  failureText purpose (p.message :: p.causes)

/-! ## Reading the feed -/

/-- Why there are no events. -/
inductive FeedFailure where
  /-- The file that the arguments name cannot be opened. -/
  | unopened (path : Path) (fault : FileTree.Fault)
  | problem (problem : Problem)
  deriving Repr, DecidableEq

def FeedFailure.text : FeedFailure → String
  | .unopened path fault =>
    failureText "Failed to read test output" ["Failed to open " ++ path.text, fault.message]
  | .problem p => p.inContext "Failed to read test output"

/-- The events of the feed that the arguments name, or of the input. -/
def readFeed (s : Surroundings) (file : Option Path) : Except FeedFailure (List Event) :=
  let ofBytes (feed : ByteArray) : Except FeedFailure (List Event) :=
    (Feed.events feed.data.toList).mapError .problem
  match file with
  | none => ofBytes s.input
  | some p =>
    match s.tree.read p with
    | .ok feed => ofBytes feed
    | .error .isDirectory => .error (.problem (.unreadableFeed .isDirectory))
    | .error fault => .error (.unopened p fault)

/-! ## Printing -/

/-- A bundle in a format. -/
def OutputFormat.render (f : OutputFormat) (b : Bundle) : String :=
  match f with
  | .json => b.toJson ++ "\n"
  | .prompt => b.prompt ++ "\n\n"
  | .summary => b.summary ++ "\n"

/-- The bundles of all outcomes, one after the other. -/
def renderAll (f : OutputFormat) (outcomes : List FileOutcome) : String :=
  String.join ((outcomes.flatMap FileOutcome.bundles).map f.render)

/-- The line about a slot in the list of files. -/
def ResolvedSlot.line (s : ResolvedSlot) : String :=
  match s.located with
  | .ok found => "  " ++ found.path.text ++ "\n"
  | .error _ => "  " ++ s.reported.text ++ " (unresolved)\n"

/-- The files that failed, with their problems. -/
def failures (outcomes : List FileOutcome) : List (Path × Problem) :=
  outcomes.filterMap fun o => match o.result with
    | .ok _ => none
    | .error p => some (o.file, p)

/-- What is said about the files that failed, of so many slots. -/
def failuresText (slots : Nat) : List (Path × Problem) → List String
  | [] => []
  | [(file, p)] => [p.inContext ("Failed to process failing tests in " ++ file.text)]
  | several =>
    several.map (fun (file, p) => "Error: " ++ file.text ++ ": " ++ p.message ++ "\n")
      ++ [failureText (toString several.length ++ " of " ++ toString slots
        ++ " files could not be processed") []]

/-! ## Running -/

/-- How files are triaged under some settings. -/
def Settings.triage (s : Settings) (root : Path) : Triage where
  locator := ⟨root, s.ignored⟩
  naming := ⟨s.testBeginning⟩
  transitive := s.transitive
  keepGoing := s.keepGoing
  parallel := s.parallel

/-- The triage of an index that is not empty. -/
def runIndex (s : Surroundings) (settings : Settings) (root : Path) (index : FailureIndex) :
    Report :=
  let g := settings.triage root
  let slots := g.resolve s.tree index
  let outcomes := g.runResolved s.tree slots
  let failed := failures outcomes
  { exitCode := if failed.isEmpty then 0 else 1
    output := renderAll settings.format outcomes
    notices :=
      (g.resolveLog s.tree [] index.slots).map .log
        ++ [.text "Files:\n"] ++ slots.map (.text ·.line)
        ++ (g.runLog s.tree slots).map .log
        ++ (outcomes.flatMap FileOutcome.log).map .log
        ++ (failuresText slots.length failed).map .text }

/-- A run that ends before there is anything to print. -/
def Report.failed (text : String) : Report := ⟨1, "", [.text text]⟩

/-- The run that options ask for, with all it could tell. -/
def runOptions (s : Surroundings) (o : CommandLine.Options) : Report :=
  let root := o.root.getD ⟨"."⟩
  let settingsLog :=
    match o.config with
    | some p =>
      if s.tree.isFile p then Settings.log s.tree (Settings.layerFiles s.userSettings root o.config)
      else []
    | none => Settings.log s.tree (Settings.layerFiles s.userSettings root none)
  let report : Report :=
    match Settings.load s.tree s.userSettings root o.config with
    | .error p => .failed (failureText p.message p.causes)
    | .ok settings =>
      match readFeed s o.input with
      | .error failure => .failed failure.text
      | .ok events =>
        let index := Correlator.correlate {} events
        let report : Report :=
          if index.isEmpty then
            ⟨0, "", [.log (.ofTexts .info "gofix" "no attributable failing tests" []),
              .text "No attributable failing tests.\n"]⟩
          else runIndex s (o.layer.apply settings) root index
        { report with notices := (Correlator.log {} events).map .log ++ report.notices }
  { report with notices := settingsLog.map .log ++ report.notices }

/-- The filter that is described, or else the one for how much the run was asked to tell. -/
def logFilter (s : Surroundings) (o : CommandLine.Options) : Log.Filter :=
  (s.logFilter.bind Log.Filter.parse?).getD (.upTo (.ofVerbosity o.verbosity))

/-- Notices without the log entries that a filter drops. -/
def Report.filtered (r : Report) (filter : Log.Filter) : Report :=
  { r with notices := r.notices.filter fun
    | .text _ => true
    | .log e => filter.keeps e }

/-- How log entries are written in the run that arguments ask for. -/
def logFormat (arguments : List String) : LogFormat :=
  match CommandLine.read arguments with
  | .ok o => if o.logJson then .json else .plain
  | .error _ => .plain

/-- The run that arguments ask for. -/
def run (s : Surroundings) (arguments : List String) : Report :=
  match CommandLine.read arguments with
  | .ok o => (runOptions s o).filtered (logFilter s o)
  | .error .help => ⟨0, CommandLine.help, []⟩
  | .error .version => ⟨0, CommandLine.version, []⟩
  | .error .usage => ⟨2, "", [.text "Usage: gofix [OPTIONS]\n"]⟩

end TestTriage
