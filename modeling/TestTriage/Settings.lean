import TestTriage.Locate
import TestTriage.Toml.Document

/-!
# Settings

Settings come in layers: defaults, the user's file, and then the project's file or one that is
named.  A layer is a TOML document that sets some of the settings and leaves the others as they are.
-/

namespace TestTriage

/-- How bundles are shown. -/
inductive OutputFormat where
  /-- One JSON object a line. -/
  | json
  /-- The repair prompt. -/
  | prompt
  /-- One line. -/
  | summary
  deriving Repr, DecidableEq

namespace OutputFormat

def all : List OutputFormat := [.json, .prompt, .summary]

def name : OutputFormat → String
  | .json => "json"
  | .prompt => "prompt"
  | .summary => "summary"

def ofName? (name : String) : Option OutputFormat := all.find? (·.name == name)

end OutputFormat

structure Settings where
  /-- What the names of tests begin with. -/
  testBeginning : String := "Test"
  /-- Names of directories in which no source files are looked for. -/
  ignored : List String := defaultIgnored
  keepGoing : Bool := false
  parallel : Bool := false
  transitive : Bool := false
  format : OutputFormat := .json
  deriving Repr, DecidableEq

/-- Settings of which some are left open. -/
structure SettingsLayer where
  testBeginning : Option String := none
  ignored : Option (List String) := none
  keepGoing : Option Bool := none
  parallel : Option Bool := none
  transitive : Option Bool := none
  format : Option OutputFormat := none
  deriving Repr, DecidableEq

/-- The settings with those that a layer sets. -/
def SettingsLayer.apply (l : SettingsLayer) (s : Settings) : Settings where
  testBeginning := l.testBeginning.getD s.testBeginning
  ignored := l.ignored.getD s.ignored
  keepGoing := l.keepGoing.getD s.keepGoing
  parallel := l.parallel.getD s.parallel
  transitive := l.transitive.getD s.transitive
  format := l.format.getD s.format

/-! ## Layers from documents -/

namespace SettingsLayer

open Toml (Span Key Value Table Cause)

/-- A setting with a value of another type. -/
def wrongType (keySpan : Span) (v : Value) (expected : String) : Except (Span × Cause) α :=
  .error (v.span?.getD keySpan, .wrongType v.described expected)

def string (keySpan : Span) : Value → Except (Span × Cause) String
  | .string _ s => .ok s
  | v => wrongType keySpan v "a string"

def boolean (keySpan : Span) : Value → Except (Span × Cause) Bool
  | .boolean _ b => .ok b
  | v => wrongType keySpan v "a boolean"

def strings (keySpan : Span) : Value → Except (Span × Cause) (List String)
  | .array _ vs => vs.mapM (string keySpan)
  | .tables _ ts => ts.mapM fun t => string keySpan (.table t)
  | v => wrongType keySpan v "a sequence"

/-- The format of this name. -/
def formatNamed (span : Span) (name : String) : Except (Span × Cause) OutputFormat :=
  match OutputFormat.ofName? name with
  | some f => .ok f
  | none => .error (span, .unknownVariant name (OutputFormat.all.map (·.name)))

/-- What a table gives a format besides its name: nothing. -/
def nothing (keySpan : Span) (v : Value) : Except (Span × Cause) Unit :=
  let span := v.span?.getD keySpan
  match v with
  | .table t => if t.entries.isEmpty then .ok () else .error (span, .variantNotEmpty "table")
  | .array _ vs => if vs.isEmpty then .ok () else .error (span, .variantNotEmpty "array")
  | .tables _ ts => if ts.isEmpty then .ok () else .error (span, .variantNotEmpty "array")
  | v => .error (span, .variantWithValue v.typeName)

/-- A format: its name, or a table with just that name. -/
def outputFormat (keySpan : Span) (v : Value) : Except (Span × Cause) OutputFormat :=
  let span := v.span?.getD keySpan
  match v with
  | .string _ s => formatNamed span s
  | .table t =>
    match t.entries with
    | [] => .error (span, .noVariant)
    | [(k, inner)] => do
      let f ← formatNamed k.span k.name
      nothing span inner
      return f
    | _ => .error (span, .severalVariants)
  | _ => .error (span, .notVariant)

/-- The keys of the settings. -/
def keys : List String :=
  ["test_prefix", "ignore_dirs", "keep_going", "parallel", "transitive", "format"]

/-- The layer with one more setting. -/
def set (l : SettingsLayer) (k : Key) (v : Value) : Except (Span × Cause) SettingsLayer :=
  if k.name = "test_prefix" then return { l with testBeginning := some (← string k.span v) }
  else if k.name = "ignore_dirs" then return { l with ignored := some (← strings k.span v) }
  else if k.name = "keep_going" then return { l with keepGoing := some (← boolean k.span v) }
  else if k.name = "parallel" then return { l with parallel := some (← boolean k.span v) }
  else if k.name = "transitive" then return { l with transitive := some (← boolean k.span v) }
  else if k.name = "format" then return { l with format := some (← outputFormat k.span v) }
  else throw (k.span, .unknownKey k.name keys)

/-- The layer that a document is. -/
def ofDocument (text : Text.Bytes) : Except Toml.Error SettingsLayer := do
  let table ← Toml.parse text
  match table.entries.foldlM (fun l (k, v) => set l k v) {} with
  | .ok l => return l
  | .error (span, cause) => throw ⟨text, span, cause⟩

/-- The layer in a file. -/
def read (t : FileTree) (p : Path) : Except Problem SettingsLayer :=
  match t.readText p with
  | .error fault => .error (.badSettings p (.unreadable fault))
  | .ok text =>
    match ofDocument (Text.utf8 text) with
    | .error e => .error (.badSettings p (.malformed e))
    | .ok l => .ok l

end SettingsLayer

/-! ## Loading -/

namespace Settings

/-- The settings with the layers in some files; paths that lead to no file are passed over. -/
def withLayers (t : FileTree) (s : Settings) : List Path → Except Problem Settings
  | [] => return s
  | p :: ps =>
    if t.isFile p then do withLayers t ((← SettingsLayer.read t p).apply s) ps
    else withLayers t s ps

/-- The defaults with the layers in some files. -/
def ofLayers (t : FileTree) (paths : List Path) : Except Problem Settings := withLayers t {} paths

/-- Name of the settings file in a project's root. -/
def projectFile : Path := ⟨".gofix.toml"⟩

/-- The user's settings file below the directory for such files. -/
def userFile (directory : Path) : Path := (directory.join ⟨"gofix"⟩).join ⟨"config.toml"⟩

/-- The files that settings are read from: the user's, and then the one that is named or else the
project's. -/
def layerFiles (user : Option Path) (root : Path) (named : Option Path) : List Path :=
  user.toList ++ [named.getD (root.join projectFile)]

/-- The settings of a project.  A file that is named must be there. -/
def load (t : FileTree) (user : Option Path) (root : Path) (named : Option Path) :
    Except Problem Settings :=
  match named with
  | some p =>
    if t.isFile p then ofLayers t (layerFiles user root named)
    else .error (.badSettings p .missing)
  | none => ofLayers t (layerFiles user root none)

end Settings

end TestTriage
