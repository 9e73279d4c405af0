import TestTriage.Decimal.Shortest
import TestTriage.Text.Quoted
import TestTriage.Text.Utf8

/-!
# TOML values and what may be wrong with a document

Keys and values know the piece of the document they stand in.  An error shows that piece: its line
with carets below it, and then the message of its cause.
-/

namespace TestTriage.Toml

open TestTriage.Decimal (Binary64)

/-- A piece of a document, by the number of bytes from its first byte to the end of the document and
the number of bytes behind it. -/
structure Span where
  left : Nat
  behind : Nat
  deriving Repr, DecidableEq

structure Key where
  name : String
  span : Span
  deriving Repr, DecidableEq

/-- A floating-point number. -/
inductive Real where
  | finite (negative : Bool) (value : Binary64)
  | infinite (negative : Bool)
  | notNumber
  deriving Repr, DecidableEq

/-- A table with values of some kind. -/
structure Table (α : Type) where
  /-- Was it made on the way to another table, and not by a header of its own? -/
  implied : Bool
  /-- Was it made by a dotted key? -/
  dotted : Bool
  /-- Does it stand within a value? -/
  inline : Bool
  span : Option Span
  /-- Keys and values in the order they came in. -/
  entries : List (Key × α)
  deriving Repr

inductive Value where
  | string (span : Span) (value : String)
  | integer (span : Span) (value : Int)
  | real (span : Span) (value : Real)
  | boolean (span : Span) (value : Bool)
  /-- A date, a time or both. -/
  | moment (span : Span)
  | array (span : Span) (items : List Value)
  | table (value : Table Value)
  /-- The tables of one name whose headers stand in double brackets. -/
  | tables (span : Option Span) (items : List (Table Value))
  deriving Repr

namespace Table

/-- A table without entries. -/
def empty (implied dotted inline : Bool) (span : Option Span) : Table α :=
  ⟨implied, dotted, inline, span, []⟩

def find? (t : Table α) (name : String) : Option α :=
  (t.entries.find? (·.1.name == name)).map (·.2)

/-- The table with one more entry. -/
def append (t : Table α) (key : Key) (value : α) : Table α :=
  { t with entries := t.entries ++ [(key, value)] }

/-- The table with another value for a key that it has. -/
def replace (t : Table α) (name : String) (value : α) : Table α :=
  { t with entries := t.entries.map fun (k, v) => if k.name = name then (k, value) else (k, v) }

def erase (t : Table α) (name : String) : Table α :=
  { t with entries := t.entries.filter (·.1.name != name) }

end Table

namespace Value

/-- Where the value stands; tables that no header names stand nowhere. -/
def span? : Value → Option Span
  | .string s _ | .integer s _ | .real s _ | .boolean s _ | .moment s | .array s _ => some s
  | .table t => t.span
  | .tables s _ => s

/-- What kind of value it is. -/
def typeName : Value → String
  | .string .. => "string"
  | .integer .. => "integer"
  | .real .. => "float"
  | .boolean .. => "boolean"
  | .moment _ => "datetime"
  | .array .. => "array"
  | .table t => if t.inline then "inline table" else "table"
  | .tables .. => "array of tables"

end Value

def Real.text : Real → String
  | .finite negative value =>
    String.ofList ((if negative then ['-'] else []) ++ Decimal.long value)
  | .infinite negative => if negative then "-inf" else "inf"
  | .notNumber => "NaN"

/-- How a value is named where another type was expected. -/
def Value.described : Value → String
  | .string _ s => "string " ++ Text.quote s
  | .integer _ n => "integer `" ++ toString n ++ "`"
  | .real _ x => "floating point `" ++ x.text ++ "`"
  | .boolean _ b => "boolean `" ++ (if b then "true" else "false") ++ "`"
  | .array .. | .tables .. => "sequence"
  | .moment _ | .table _ => "map"

/-! ## Errors -/

/-- What a malformed piece of a document was meant to be. -/
inductive Subject where
  | key
  | header
  | string
  | basicString
  | literalString
  | longBasicString
  | longLiteralString
  | escape
  | shortCode
  | longCode
  | array
  | inlineTable
  | integer
  | hexadecimal
  | octal
  | binary
  | real
  | moment
  deriving Repr, DecidableEq

def Subject.text : Subject → String
  | .key => "key"
  | .header => "table header"
  | .string => "string"
  | .basicString => "basic string"
  | .literalString => "literal string"
  | .longBasicString => "multiline basic string"
  | .longLiteralString => "multiline literal string"
  | .escape => "escape sequence"
  | .shortCode => "unicode 4-digit hex code"
  | .longCode => "unicode 8-digit hex code"
  | .array => "array"
  | .inlineTable => "inline table"
  | .integer => "integer"
  | .hexadecimal => "hexadecimal integer"
  | .octal => "octal integer"
  | .binary => "binary integer"
  | .real => "floating-point number"
  | .moment => "date-time"

/-- Why a well-formed piece has no place in a document. -/
inductive Reason where
  /-- The key is there already, in the table that the names lead to. -/
  | duplicateKey (key : String) (table : Option (List String))
  /-- The names lead to a value that is no table. -/
  | extendsValue (names : List String) (typeName : String)
  | outOfRange
  | tooLarge
  | tooSmall
  | tooDeep
  deriving Repr, DecidableEq

def Reason.text : Reason → String
  | .duplicateKey key none => "duplicate key `" ++ key ++ "`"
  | .duplicateKey key (some []) => "duplicate key `" ++ key ++ "` in document root"
  | .duplicateKey key (some names) =>
    "duplicate key `" ++ key ++ "` in table `" ++ ".".intercalate names ++ "`"
  | .extendsValue names typeName =>
    "dotted key `" ++ ".".intercalate names ++ "` attempted to extend non-table type ("
      ++ typeName ++ ")"
  | .outOfRange => "value is out of range"
  | .tooLarge => "number too large to fit in target type"
  | .tooSmall => "number too small to fit in target type"
  | .tooDeep => "recursion limit exceeded"

/-- What is wrong with a piece of a document. -/
inductive Cause where
  | malformed (subject : Option Subject) (expected : List String) (reason : Option Reason)
  | unknownKey (key : String) (known : List String)
  | wrongType (found expected : String)
  | unknownVariant (variant : String) (known : List String)
  | notVariant
  | noVariant
  | severalVariants
  | variantNotEmpty (container : String)
  | variantWithValue (typeName : String)
  deriving Repr, DecidableEq

/-- Names in backquotes. -/
def quoteNames (names : List String) : String := ", ".intercalate (names.map ("`" ++ · ++ "`"))

def Cause.message : Cause → String
  | .malformed subject expected reason =>
    "\n".intercalate
      ((subject.map ("invalid " ++ ·.text)).toList
        ++ (if expected.isEmpty then [] else ["expected " ++ ", ".intercalate expected])
        ++ (reason.map (·.text)).toList)
  | .unknownKey key known => "unknown field `" ++ key ++ "`, expected one of " ++ quoteNames known
  | .wrongType found expected => "invalid type: " ++ found ++ ", expected " ++ expected
  | .unknownVariant variant known =>
    "unknown variant `" ++ variant ++ "`, expected one of " ++ quoteNames known
  | .notVariant => "wanted string or table"
  | .noVariant => "wanted exactly 1 element, found 0 elements"
  | .severalVariants => "wanted exactly 1 element, more than 1 element"
  | .variantNotEmpty container => "expected empty " ++ container
  | .variantWithValue typeName => "expected table, found " ++ typeName

/-- A cause, and the piece of the document that shows it. -/
structure Error where
  document : Text.Bytes
  span : Span
  cause : Cause
  deriving Repr, DecidableEq

/-! ## Showing errors -/

/-- Rows above a byte of the document, and the characters in front of it in its row.  In the middle
of a character bytes are counted instead, and behind the last byte counting goes on from it. -/
def place (document : Text.Bytes) (first : Nat) : Nat × Nat :=
  let last := min first (document.length - 1)
  let before := document.take last
  let newline : UInt8 := 10
  let row := (before.reverse.takeWhile (· != newline)).reverse
  let column := match Text.decode (row ++ (document.drop last).take 1) with
    | (cs, []) => cs.length - 1
    | _ => row.length
  (before.count newline, column + (first - last))

/-- A row of the document. -/
def rowAt (document : Text.Bytes) : (row : Nat) → Text.Bytes
  | 0 => document.takeWhile (· != 10)
  | row + 1 => rowAt ((document.dropWhile (· != 10)).drop 1) row

/-- The message with the line it is about. -/
def Error.message (e : Error) : String :=
  let first := e.document.length - e.span.left
  let (row, column) := place e.document first
  let line := rowAt e.document row
  let number := toString (row + 1)
  let margin := String.ofList (List.replicate (number.length + 1) ' ')
  let width := max 1 (min (e.span.left - e.span.behind) (line.length - column))
  "TOML parse error at line " ++ number ++ ", column " ++ toString (column + 1) ++ "\n"
    ++ margin ++ "|\n"
    ++ number ++ " | " ++ String.ofList (Text.decode line).1 ++ "\n"
    ++ margin ++ "|" ++ String.ofList (List.replicate (column + 1) ' ')
    ++ String.ofList (List.replicate width '^') ++ "\n"
    ++ e.cause.message ++ "\n"

end TestTriage.Toml
