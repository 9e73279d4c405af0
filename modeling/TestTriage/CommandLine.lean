import TestTriage.Settings

/-!
# The command line

An option with a value takes it from behind an equals sign or from the next argument, and is given
at most once.  A switch has two flags, of which the last one given counts; the same flag may not be
given again without the other between.  Options of one letter may share a dash.
-/

namespace TestTriage.CommandLine

/-- What the arguments ask for. -/
structure Options where
  root : Option Path := none
  input : Option Path := none
  config : Option Path := none
  format : Option OutputFormat := none
  testBeginning : Option String := none
  keepGoing : Option Bool := none
  parallel : Option Bool := none
  transitive : Option Bool := none
  verbosity : Nat := 0
  logJson : Bool := false
  deriving Repr, DecidableEq

/-- Why arguments are not gone on with. -/
inductive Stop where
  | help
  | version
  /-- The arguments are wrong. -/
  | usage
  deriving Repr, DecidableEq

/-! ## Options -/

/-- What takes a value. -/
inductive Valued where
  | root
  | input
  | config
  | format
  | testBeginning
  deriving Repr, DecidableEq

/-- What is switched on and off by two flags. -/
inductive Switch where
  | keepGoing
  | parallel
  | transitive
  deriving Repr, DecidableEq

/-- What takes no value. -/
inductive Flag where
  | switch (which : Switch) (on : Bool)
  | verbose
  | logJson
  | help
  | version
  deriving Repr, DecidableEq

/-- An option by its names. -/
structure Known where
  meaning : Valued ⊕ Flag
  letter : Option Char
  name : String
  /-- How the value is called. -/
  value : String
  help : String

/-- All options. -/
def known : List Known :=
  [⟨.inl .root, some 'r', "root", " <ROOT>",
      "Project root to search for test files (defaults to current directory) [default: .]"⟩,
    ⟨.inl .input, some 'i', "input", " <INPUT>", "Read the test feed from a file instead of stdin"⟩,
    ⟨.inl .config, some 'c', "config", " <CONFIG>",
      "Config file to use instead of <root>/.gofix.toml"⟩,
    ⟨.inl .format, some 'f', "format", " <FORMAT>",
      "Output format for bundles [possible values: json, prompt, summary]"⟩,
    ⟨.inr (.switch .keepGoing true), none, "keep-going", "",
      "Keep processing other files after one fails"⟩,
    ⟨.inr (.switch .keepGoing false), none, "no-keep-going", "",
      "Halt at the first file that fails, even if config says otherwise"⟩,
    ⟨.inr (.switch .parallel true), none, "parallel", "", "Process files in parallel"⟩,
    ⟨.inr (.switch .parallel false), none, "no-parallel", "", "Process files one at a time"⟩,
    ⟨.inr (.switch .transitive true), none, "transitive", "",
      "Also include functions called by the test's dependencies"⟩,
    ⟨.inr (.switch .transitive false), none, "no-transitive", "",
      "Only include functions the test calls directly"⟩,
    ⟨.inl .testBeginning, none, "test-prefix", " <TEST_PREFIX>",
      "Name prefix of test functions (default: Test)"⟩,
    ⟨.inr .verbose, some 'v', "verbose", "...", "Increase log verbosity (-v info, -vv debug)"⟩,
    ⟨.inr .logJson, none, "log-json", "", "Emit logs as JSON lines"⟩,
    ⟨.inr .help, some 'h', "help", "", "Print help"⟩,
    ⟨.inr .version, some 'V', "version", "", "Print version"⟩]

/-- The option of this name. -/
def named? (name : String) : Option (Valued ⊕ Flag) :=
  (known.find? (·.name == name)).map (·.meaning)

/-- The option of this letter. -/
def lettered? (letter : Char) : Option (Valued ⊕ Flag) :=
  (known.find? (·.letter == some letter)).map (·.meaning)

/-- The line about an option. -/
def Known.line (k : Known) : String :=
  let left := (match k.letter with
    | some c => "  -" ++ String.singleton c ++ ", --"
    | none => "      --") ++ k.name ++ k.value
  left ++ String.ofList (List.replicate (35 - left.length) ' ') ++ k.help ++ "\n"

def help : String :=
  "Extract the source context of failing Go tests from `go test -json` output\n\n"
    ++ "Usage: gofix [OPTIONS]\n\nOptions:\n" ++ String.join (known.map Known.line)

def version : String := "gofix 0.1.0\n"

/-! ## Applying options -/

/-- A setting that was open. -/
def once (before : Option α) (value : α) : Except Stop (Option α) :=
  if before.isSome then throw .usage else return some value

/-- A path that is not empty. -/
def path (value : String) : Except Stop Path :=
  if value.isEmpty then throw .usage else return ⟨value⟩

/-- The options with a value. -/
def Options.set (o : Options) (what : Valued) (value : String) : Except Stop Options :=
  match what with
  | .root => return { o with root := ← once o.root (← path value) }
  | .input => return { o with input := ← once o.input (← path value) }
  | .config => return { o with config := ← once o.config (← path value) }
  | .format =>
    match OutputFormat.ofName? value with
    | some f => return { o with format := ← once o.format f }
    | none => throw .usage
  | .testBeginning => return { o with testBeginning := ← once o.testBeginning value }

/-- A switch turned by one of its flags. -/
def turned (before : Option Bool) (on : Bool) : Except Stop (Option Bool) :=
  if before = some on then throw .usage else return some on

/-- The options with a flag. -/
def Options.raise (o : Options) (flag : Flag) : Except Stop Options :=
  match flag with
  | .switch .keepGoing on => return { o with keepGoing := ← turned o.keepGoing on }
  | .switch .parallel on => return { o with parallel := ← turned o.parallel on }
  | .switch .transitive on => return { o with transitive := ← turned o.transitive on }
  | .verbose => return { o with verbosity := o.verbosity + 1 }
  | .logJson => if o.logJson then throw .usage else return { o with logJson := true }
  | .help => throw .help
  | .version => throw .version

/-! ## Reading arguments -/

/-- The options behind an argument, and the option whose value has to follow. -/
abbrev Step := Except Stop (Options × Option Valued)

/-- An option by its name, with the value behind its equals sign. -/
def long (o : Options) (name : String) (value : Option String) : Step :=
  match named? name, value with
  | none, _ => throw .usage
  | some (.inl what), some v => return (← o.set what v, none)
  | some (.inl what), none => return (o, some what)
  | some (.inr _), some _ => throw .usage
  | some (.inr flag), none => return (← o.raise flag, none)

/-- Options by their letters.  What stands behind the letter of an option with a value is the
value. -/
def short (o : Options) : List Char → Step
  | [] => return (o, none)
  | c :: cs =>
    match lettered? c, cs with
    | none, _ => throw .usage
    | some (.inr flag), _ => do short (← o.raise flag) cs
    | some (.inl what), [] => return (o, some what)
    | some (.inl what), '=' :: value => return (← o.set what (String.ofList value), none)
    | some (.inl what), value => return (← o.set what (String.ofList value), none)

/-- Does the argument begin like an option? -/
def isOption (argument : List Char) : Bool := argument.head? == some '-' && argument != ['-']

/-- One argument. -/
def step (o : Options) (argument : List Char) : Step :=
  match argument with
  | '-' :: '-' :: cs =>
    match cs.dropWhile (· != '=') with
    | [] => long o (String.ofList cs) none
    | _ :: value => long o (String.ofList (cs.takeWhile (· != '='))) (some (String.ofList value))
  | '-' :: c :: cs => short o (c :: cs)
  | _ => throw .usage

/-- The options that some arguments add.  Nothing may stand behind two dashes alone. -/
def readInto (o : Options) : List String → Except Stop Options
  | [] => return o
  | a :: rest =>
    if a = "--" then if rest.isEmpty then return o else throw .usage
    else
      match step o a.toList with
      | .error stop => throw stop
      | .ok (o, none) => readInto o rest
      | .ok (o, some what) =>
        match rest with
        | [] => throw .usage
        | v :: rest =>
          if isOption v.toList then throw .usage
          else match o.set what v with
            | .error stop => throw stop
            | .ok o => readInto o rest

/-- The options that arguments ask for. -/
def read (arguments : List String) : Except Stop Options := readInto {} arguments

/-- The options as a layer over the settings files. -/
def Options.layer (o : Options) : SettingsLayer :=
  { testBeginning := o.testBeginning
    keepGoing := o.keepGoing
    parallel := o.parallel
    transitive := o.transitive
    format := o.format }

end TestTriage.CommandLine
