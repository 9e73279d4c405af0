import TestTriage.Run

/-!
# The program

Takes a picture of the files that a run can see, runs, and prints.  Of a file that is no source file
only the name matters, so its content is left out of the picture unless the arguments name the file.

What the system refuses to show stands in the picture with the reason it gives.  A directory that
cannot be listed counts as one that cannot be entered either, and what is listed but cannot be
examined counts as a file that cannot be read.  A name that is not UTF-8 is left out.
-/

namespace TestTriage.Program

/-- What the system says against showing something. -/
def refusal : IO.Error → FileTree.Fault
  | .noFileOrDirectory .. => .notFound
  | .permissionDenied .. => .denied
  | .resourceExhausted _ code reason | .invalidArgument _ code reason
  | .inappropriateType _ code reason | .resourceBusy code reason | .hardwareFault code reason
  | .otherError code reason => .refused reason code.toNat
  | _ => .refused "Input/output error" 5

/-- The content of a file, or what is said against reading it. -/
def content (entry : IO.FS.DirEntry) : IO (Except FileTree.Fault ByteArray) := do
  try return .ok (← IO.FS.readBinFile entry.path) catch e => return .error (refusal e)

/-- Does anything stand at the path yet? -/
def shows (t : FileTree) (path : Path) : Bool := (t.top.entryAt? (t.namesOf path)).isSome

/-- The tree with a file at a path, read whole or with nothing but its name. -/
def withFile (t : FileTree) (entry : IO.FS.DirEntry) (path : Path) (whole : Bool) :
    IO FileTree := do
  if whole then return t.putFile path (← content entry)
  else if shows t path then return t
  else return t.write path .empty

/-- The tree with a directory at a path, of what it holds only what was there. -/
def withDirectory (t : FileTree) (path : Path) : FileTree :=
  if shows t path then t else t.makeDirectory path

/-- The tree with an entry of a directory at a path, and with what it links to.  Directories come
without what they hold.  What is neither file nor directory comes only if the arguments name it. -/
def glance (t : FileTree) (entry : IO.FS.DirEntry) (path : Path) (named : Bool) : IO FileTree := do
  let whole := named || entry.fileName.endsWith ".go"
  match (← entry.path.symlinkMetadata).type with
  | .dir => return withDirectory t path
  | .file => withFile t entry path whole
  | .symlink =>
    let real ← IO.FS.realPath entry.path
    let target : Path := ⟨real.toString⟩
    match (← real.metadata).type with
    | .dir => return (withDirectory t target).link path target
    | .file => return (← withFile t entry target whole).link path target
    | _ => if named then return (← withFile t entry target whole).link path target else return t
  | .other => if named then withFile t entry path whole else return t

/-- Where a path leads, free of links. -/
def real? (path : Path) : IO (Option Path) := do
  try return some ⟨(← IO.FS.realPath path.text).toString⟩ catch _ => return none

/-- The tree with what stands along a path, up to what cannot be examined. -/
def along (t : FileTree) (path : Path) : IO FileTree := do
  let mut t := t
  let mut passed : Path := ⟨if path.isAbsolute then "/" else "."⟩
  for s in path.segments do
    let name := String.ofList s
    unless Path.isIdle s do
      let some directory ← real? passed | return t
      try
        unless name = ".." do t ← glance t ⟨directory.text, name⟩ (directory.join ⟨name⟩) true
      catch
        | .permissionDenied .. => return t.makeUnreadable directory .denied
        | _ => return t
      passed := passed.join ⟨name⟩
  return t

/-- The tree with everything below a directory, of which source files are read whole. -/
partial def below (t : FileTree) (directory : Path) : IO FileTree := do
  let mut entries := #[]
  try entries ← (← IO.FS.realPath directory.text).readDir
  catch e => return t.makeUnreadable directory (refusal e)
  let mut t := t
  for entry in entries do
    let path := directory.join ⟨entry.fileName⟩
    try
      t ← glance t entry path false
      if (← entry.path.symlinkMetadata).type == .dir then t ← below t path
    catch
      | .permissionDenied .. => t := t.putFile path (.error .denied)
      | _ => pure ()
  return t

/-- The tree with everything below the root, if it is a directory. -/
def belowRoot (t : FileTree) (root : Path) : IO FileTree := do
  let some directory ← real? root | return t
  match t.resolve .keep directory with
  | .ok ⟨_, .directory _⟩ => below t directory
  | _ => return t

/-- The directory for users' settings files. -/
def settingsDirectory : IO (Option Path) := do
  match ← IO.getEnv "XDG_CONFIG_HOME", ← IO.getEnv "HOME" with
  | some directory, home =>
    if directory.startsWith "/" then return some ⟨directory⟩
    else return home.map fun h => Path.join ⟨h⟩ ⟨".config"⟩
  | none, home => return home.map fun h => Path.join ⟨h⟩ ⟨".config"⟩

/-- What a run with these options finds around it. -/
def surroundings (o : CommandLine.Options) : IO Surroundings := do
  let here : Path := ⟨(← IO.currentDir).toString⟩
  let root := o.root.getD ⟨"."⟩
  let userSettings := (← settingsDirectory).map Settings.userFile
  let mut t := FileTree.ofStart (here.parts.filterMap fun | .name n => some n | _ => none)
  for path in [root, implementationPath root, root.join Settings.projectFile]
      ++ userSettings.toList ++ o.config.toList ++ o.input.toList do
    t ← along t path
  t ← belowRoot t root
  let input ← match o.input with
    | none => (← IO.getStdin).readBinToEnd
    | some _ => pure .empty
  return ⟨t, userSettings, ← IO.getEnv "RUST_LOG", input⟩

end TestTriage.Program

/-- Runs with the given arguments. -/
def main (arguments : List String) : IO UInt32 := do
  let surroundings ← match TestTriage.CommandLine.read arguments with
    | .ok o => TestTriage.Program.surroundings o
    | .error _ => pure ⟨default, none, none, .empty⟩
  let report := TestTriage.run surroundings arguments
  let stderr ← IO.getStderr
  (← IO.getStdout).putStr report.output
  for notice in report.notices do
    stderr.putStr (notice.render (TestTriage.logFormat arguments))
  return report.exitCode.toUInt32
