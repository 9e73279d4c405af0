import TestTriage.Json.Quoted
import TestTriage.Text.Split

/-!
# Logs

What a run tells about itself.  An entry has a level, a source within the program, and fields; a
filter says which entries are kept.
-/

namespace TestTriage.Log

/-- How important an entry is. -/
inductive Level where
  | error
  | warn
  | info
  | debug
  | trace
  deriving Repr, DecidableEq

namespace Level

/-- The less important, the higher. -/
def rank : Level → Nat
  | .error => 1
  | .warn => 2
  | .info => 3
  | .debug => 4
  | .trace => 5

def name : Level → String
  | .error => "ERROR"
  | .warn => "WARN"
  | .info => "INFO"
  | .debug => "DEBUG"
  | .trace => "TRACE"

/-- The least important level that is told when a run was asked so many times to tell more. -/
def ofVerbosity : Nat → Level
  | 0 => .warn
  | 1 => .info
  | 2 => .debug
  | _ => .trace

end Level

/-- The value of a field. -/
inductive FieldValue where
  | text (value : String)
  | number (value : Nat)
  deriving Repr, DecidableEq

structure Entry where
  level : Level
  /-- The part of the program that tells it. -/
  source : String
  message : String
  fields : List (String × FieldValue)
  deriving Repr, DecidableEq

/-- An entry with fields that are texts. -/
def Entry.ofTexts (level : Level) (source message : String) (fields : List (String × String)) :
    Entry :=
  ⟨level, source, message, fields.map fun (k, v) => (k, .text v)⟩

/-- The entry as a JSON object. -/
def Entry.toJson (e : Entry) : String :=
  let fields := ("message", .text e.message) :: e.fields
  let members := fields.map fun (k, v) => Json.quoted k ++ ":" ++ match v with
    | .text s => Json.quoted s
    | .number n => toString n
  "\x7b" ++ "\"level\":" ++ Json.quoted e.level.name ++ ",\"fields\":\x7b"
    ++ ",".intercalate members ++ "\x7d\x7d"

/-- The entry as a line to be read by people. -/
def Entry.line (e : Entry) : String :=
  e.level.name ++ " " ++ e.message ++ String.join (e.fields.map fun (k, v) => " " ++ k ++ "=" ++
    match v with
    | .text s => s
    | .number n => toString n)

/-! ## Filters -/

/-- Keeps entries of a source, or of any, up to a rank. -/
structure Directive where
  source : Option String
  rank : Nat
  deriving Repr, DecidableEq

abbrev Filter := List Directive

/-- The rank that a level's name or number stands for; nothing is kept at rank zero. -/
def rank? (text : String) : Option Nat :=
  let lower := String.ofList (text.toList.map Char.toLower)
  if lower = "off" ∨ lower = "0" then some 0
  else if lower = "error" ∨ lower = "1" then some 1
  else if lower = "warn" ∨ lower = "2" then some 2
  else if lower = "info" ∨ lower = "3" then some 3
  else if lower = "debug" ∨ lower = "4" then some 4
  else if lower = "trace" ∨ lower = "5" then some 5
  else none

/-- Letters, digits and what else names of sources are made of. -/
def isSourceChar (c : Char) : Bool := c.isAlphanum || c == '_' || c == ':' || c == '-'

/-- One directive: a level, a source, or both. -/
def Directive.parse? (text : List Char) : Option Directive :=
  match Text.split '=' text with
  | [one] =>
    match rank? (String.ofList one) with
    | some rank => some ⟨none, rank⟩
    | none => if one.all isSourceChar then some ⟨some (String.ofList one), 5⟩ else none
  | [source, level] =>
    if source.isEmpty || !source.all isSourceChar then none
    else if level.isEmpty then some ⟨some (String.ofList source), 5⟩
    else (rank? (String.ofList level)).map fun rank => ⟨some (String.ofList source), rank⟩
  | _ => none

namespace Filter

/-- Keeps entries of any source up to a level. -/
def upTo (level : Level) : Filter := [⟨none, level.rank⟩]

/-- The filter that a list of directives with commas between them describes. -/
def parse? (text : String) : Option Filter := do
  match ← ((Text.split ',' text.toList).filter (!·.isEmpty)).mapM Directive.parse? with
  | [] => return upTo .error
  | directives => return directives

/-- How closely a directive fits a source: none if it does not, and the more the longer the name it
gives. -/
def fit (d : Directive) (source : String) : Option Nat :=
  match d.source with
  | none => some 0
  | some s => if s.toList.isPrefixOf source.toList then some (s.length + 1) else none

/-- The directive that fits a source best; of several the last. -/
def closest (source : String) : Filter → Option Directive
  | [] => none
  | d :: ds =>
    match fit d source, closest source ds with
    | none, best => best
    | some _, none => some d
    | some n, some best => if (fit best source).any (n > ·) then some d else some best

/-- Is an entry kept? -/
def keeps (filter : Filter) (e : Entry) : Bool :=
  (filter.closest e.source).any fun d => e.level.rank ≤ d.rank

end Filter

end TestTriage.Log
