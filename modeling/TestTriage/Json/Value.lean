import TestTriage.Decimal.Shortest
import TestTriage.Text.Quoted
import TestTriage.Text.Utf8

/-!
# JSON values and what may be wrong with a text

Errors name their cause; the wording is in `Cause.message`.  While a text is being read, a place in
it is given by the number of bytes behind it (`Fault.left`); `Fault.locate` turns that into line and
column.
-/

namespace TestTriage.Json

open TestTriage.Text (Bytes)
open TestTriage.Decimal (Binary64)

/-- A number: an integer of at most 64 bits, or a rounded value. -/
inductive Number where
  | integer (value : Int)
  | float (negative : Bool) (value : Binary64)
  deriving Repr, DecidableEq

inductive Value where
  | null
  | boolean (value : Bool)
  | number (value : Number)
  | string (value : String)
  | array (items : List Value)
  /-- Members in the order of the text, repeated keys included. -/
  | object (members : List (String × Value))
  deriving Repr, Inhabited

namespace Value

/-- The value of a key; the last member counts. -/
def get? (key : String) (members : List (String × Value)) : Option Value :=
  (members.reverse.find? (·.1 == key)).map (·.2)

def string? : Value → Option String
  | .string s => some s
  | _ => none

end Value

/-! ## Errors -/

/-- What stood in the place of a value of another type. -/
inductive Found where
  | null
  | boolean (value : Bool)
  | number (value : Number)
  | string (value : String)
  | sequence
  | map
  deriving Repr, DecidableEq

/-- Why a text cannot be read. -/
inductive Cause where
  | endInList
  | endInObject
  | endInString
  | endInValue
  | expectedColon
  | expectedListEnd
  | expectedObjectEnd
  | expectedWord
  | expectedValue
  | invalidEscape
  | invalidNumber
  | numberOutOfRange
  | invalidUnicode
  | controlCharacter
  | keyNotString
  | loneSurrogate
  | unfinishedSurrogate
  | trailingComma
  | trailingCharacters
  | tooDeep
  | wrongType (found : Found) (expected : String)
  | missingField (name : String)
  | duplicateField (name : String)
  | wrongLength (found : Nat) (expected : String)
  deriving Repr, DecidableEq

def Number.text : Number → String
  | .integer value => toString value
  | .float negative value =>
    String.ofList ((if negative then ['-'] else []) ++ Decimal.short value)

namespace Found

def text : Found → String
  | .null => "null"
  | .boolean value => "boolean `" ++ (if value then "true" else "false") ++ "`"
  | .number (.integer value) => "integer `" ++ (Number.integer value).text ++ "`"
  | .number value => "floating point `" ++ value.text ++ "`"
  | .string value => "string " ++ Text.quote value
  | .sequence => "sequence"
  | .map => "map"

end Found

namespace Cause

def message : Cause → String
  | .endInList => "EOF while parsing a list"
  | .endInObject => "EOF while parsing an object"
  | .endInString => "EOF while parsing a string"
  | .endInValue => "EOF while parsing a value"
  | .expectedColon => "expected `:`"
  | .expectedListEnd => "expected `,` or `]`"
  | .expectedObjectEnd => "expected `,` or `\x7d`"
  | .expectedWord => "expected ident"
  | .expectedValue => "expected value"
  | .invalidEscape => "invalid escape"
  | .invalidNumber => "invalid number"
  | .numberOutOfRange => "number out of range"
  | .invalidUnicode => "invalid unicode code point"
  | .controlCharacter => "control character (\\u0000-\\u001F) found while parsing a string"
  | .keyNotString => "key must be a string"
  | .loneSurrogate => "lone leading surrogate in hex escape"
  | .unfinishedSurrogate => "unexpected end of hex escape"
  | .trailingComma => "trailing comma"
  | .trailingCharacters => "trailing characters"
  | .tooDeep => "recursion limit exceeded"
  | .wrongType found expected => "invalid type: " ++ found.text ++ ", expected " ++ expected
  | .missingField name => "missing field `" ++ name ++ "`"
  | .duplicateField name => "duplicate field `" ++ name ++ "`"
  | .wrongLength found expected =>
    "invalid length " ++ toString found ++ ", expected " ++ expected

end Cause

/-- A cause and the number of bytes behind the place it was found at. -/
structure Fault where
  cause : Cause
  left : Nat
  deriving Repr, DecidableEq

/-- A cause with its line, counted from one, and its column in bytes. -/
structure Error where
  cause : Cause
  line : Nat
  column : Nat
  deriving Repr, DecidableEq

def Error.message (e : Error) : String :=
  e.cause.message ++ " at line " ++ toString e.line ++ " column " ++ toString e.column

/-- The place of a fault in the text being read. -/
def Fault.locate (f : Fault) (text : Bytes) : Error :=
  let before := text.take (text.length - f.left)
  let newline : UInt8 := 10
  { cause := f.cause
    line := before.count newline + 1
    column := (before.reverse.takeWhile (· != newline)).length }

end TestTriage.Json
