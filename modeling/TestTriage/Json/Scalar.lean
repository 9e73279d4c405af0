import TestTriage.Json.Value

/-!
# Reading JSON scalars

Words, numbers and strings.  A reader takes the bytes in front of it and yields what it has read
with the bytes behind.
-/

namespace TestTriage.Json

open TestTriage.Text (Bytes)
open TestTriage.Decimal (Binary64)

/-- Reads a value from the front of some bytes and yields it with the bytes behind it. -/
abbrev Read (α : Type) := Bytes → Except Fault (α × Bytes)

/-- A fault at the end of the text. -/
def atEnd (cause : Cause) : Except Fault α := .error ⟨cause, 0⟩

/-- A fault with this many bytes behind it. -/
def faultBefore (cause : Cause) (rest : Bytes) : Except Fault α := .error ⟨cause, rest.length⟩

/-! ## Bytes -/

def code (c : Char) : UInt8 := c.toNat.toUInt8

/-- The white space between tokens. -/
def isSpace (b : UInt8) : Bool :=
  b == code ' ' || b == code '\n' || b == code '\t' || b == code '\r'

def skipSpace (bs : Bytes) : Bytes := bs.dropWhile isSpace

def isDigit (b : UInt8) : Bool := code '0' ≤ b && b ≤ code '9'

def digitValue (b : UInt8) : Nat := b.toNat - '0'.toNat

/-! ## Words -/

/-- The given letters, one after the other. -/
def word : (letters : List Char) → Bytes → Except Fault Bytes
  | [], bs => .ok bs
  | _ :: _, [] => atEnd .endInValue
  | c :: cs, b :: bs => if b = code c then word cs bs else faultBefore .expectedWord bs

/-! ## Numbers

A significand of 64 bits is collected; further digits only count for the exponent. -/

def significandLimit : Nat := Nat.pow 2 64

def exponentLimit : Nat := Nat.pow 2 31

/-- Adds digits to a significand as long as it stays below the limit. -/
def collect (limit significand : Nat) : Bytes → Nat × Bytes
  | [] => (significand, [])
  | b :: bs =>
    let next := significand * 10 + digitValue b
    if isDigit b ∧ next < limit then collect limit next bs else (significand, b :: bs)

/-- Divides by the largest power of ten there is until the exponent is in range. -/
def scaleDown : (steps : Nat) → Binary64 → Int → Option Binary64
  | 0, v, _ => some v
  | steps + 1, v, exponent =>
    if -308 ≤ exponent then do v.div (← Binary64.ofDecimal 1 (-exponent))
    else do scaleDown steps (← v.div (← Binary64.ofDecimal 1 308)) (exponent + 308)

/-- The value of a significand and a power of ten: the rounded significand times or divided by the
rounded power. -/
def floatOf (significand : Nat) (exponent : Int) : Option Binary64 :=
  if significand = 0 then some .zero
  else if 308 < exponent then none
  else do
    let v ← Binary64.ofRatio significand 1
    if 0 ≤ exponent then v.mul (← Binary64.ofDecimal 1 exponent)
    -- three divisions take any significand to zero
    else scaleDown 4 v exponent

def float (negative : Bool) (significand : Nat) (exponent : Int) (rest : Bytes) :
    Except Fault (Number × Bytes) :=
  match floatOf significand exponent with
  | some v => .ok (.float negative v, rest)
  | none => faultBefore .numberOutOfRange rest

/-- The exponent behind its letter. -/
def exponentPart (negative : Bool) (significand : Nat) (exponent : Int) (bs : Bytes) :
    Except Fault (Number × Bytes) :=
  let (down, bs) := match bs with
    | b :: rest =>
      if b = code '+' then (false, rest) else if b = code '-' then (true, rest) else (false, bs)
    | [] => (false, [])
  match bs with
  | [] => atEnd .endInValue
  | b :: rest =>
    if !isDigit b then faultBefore .invalidNumber rest
    else
      let (e, rest) := collect exponentLimit (digitValue b) rest
      match rest with
      | d :: behind =>
        if isDigit d then
          if significand ≠ 0 ∧ !down then faultBefore .numberOutOfRange behind
          else .ok (.float negative .zero, behind.dropWhile isDigit)
        else float negative significand (if down then exponent - e else exponent + e) rest
      | [] => float negative significand (if down then exponent - e else exponent + e) rest

/-- An exponent if there is one. -/
def exponentOrEnd (negative : Bool) (significand : Nat) (exponent : Int) (bs : Bytes) :
    Except Fault (Number × Bytes) :=
  match bs with
  | b :: rest =>
    if b = code 'e' ∨ b = code 'E' then exponentPart negative significand exponent rest
    else float negative significand exponent bs
  | [] => float negative significand exponent bs

/-- The digits behind the point. -/
def fractionPart (negative : Bool) (significand : Nat) (exponent : Int) (bs : Bytes) :
    Except Fault (Number × Bytes) :=
  match bs with
  | [] => atEnd .endInValue
  | b :: behind =>
    if !isDigit b then faultBefore .invalidNumber behind
    else
      let (significand, rest) := collect significandLimit significand bs
      let places : Int := exponent - (bs.length - rest.length : Nat)
      exponentOrEnd negative significand places (rest.dropWhile isDigit)

/-- The integer that a sign and a significand make, if it has 64 bits. -/
def integerOf (negative : Bool) (significand : Nat) : Number :=
  if !negative then .integer significand
  else if significand = 0 ∨ Nat.pow 2 63 < significand then
    .float true ((Binary64.ofRatio significand 1).getD .zero)
  else .integer (-significand)

/-- What follows the integer digits. -/
def afterInteger (negative : Bool) (significand : Nat) (bs : Bytes) :
    Except Fault (Number × Bytes) :=
  let rest := bs.dropWhile isDigit
  let dropped : Nat := bs.length - rest.length
  match rest with
  | b :: behind =>
    if b = code '.' then fractionPart negative significand dropped behind
    else if b = code 'e' ∨ b = code 'E' then exponentPart negative significand dropped behind
    else if dropped = 0 then .ok (integerOf negative significand, rest)
    else float negative significand dropped rest
  | [] =>
    if dropped = 0 then .ok (integerOf negative significand, rest)
    else float negative significand dropped rest

/-- A number without its sign. -/
def unsigned (negative : Bool) : Read Number
  | [] => atEnd .endInValue
  | b :: rest =>
    if b = code '0' then
      match rest with
      | d :: behind =>
        if isDigit d then faultBefore .invalidNumber behind else afterInteger negative 0 rest
      | [] => afterInteger negative 0 rest
    else if isDigit b then
      let (significand, rest) := collect significandLimit (digitValue b) rest
      afterInteger negative significand rest
    else faultBefore .invalidNumber rest

/-- A number whose first byte is a digit or a minus sign. -/
def number (bs : Bytes) : Except Fault (Number × Bytes) :=
  match bs with
  | b :: rest => if b = code '-' then unsigned true rest else unsigned false bs
  | [] => atEnd .endInValue

/-! ## Strings -/

def hexValue? (b : UInt8) : Option Nat :=
  if isDigit b then some (digitValue b)
  else if code 'a' ≤ b ∧ b ≤ code 'f' then some (b.toNat - 'a'.toNat + 10)
  else if code 'A' ≤ b ∧ b ≤ code 'F' then some (b.toNat - 'A'.toNat + 10)
  else none

/-- Four hexadecimal digits. -/
def hexFour : Read Nat
  | a :: b :: c :: d :: rest =>
    let digits := do
      return (((← hexValue? a) * 16 + (← hexValue? b)) * 16 + (← hexValue? c)) * 16
        + (← hexValue? d)
    match digits with
    | some n => .ok (n, rest)
    | none => faultBefore .invalidEscape rest
  | _ => atEnd .endInString

/-- The low surrogate that has to follow a high one. -/
def lowSurrogate (high : Nat) : Read Char
  | [] => atEnd .endInString
  | b :: rest =>
    if b ≠ code '\\' then faultBefore .unfinishedSurrogate rest
    else match rest with
      | [] => atEnd .endInString
      | u :: rest =>
        if u ≠ code 'u' then faultBefore .unfinishedSurrogate rest
        else do
          let (low, rest) ← hexFour rest
          if 0xdc00 ≤ low ∧ low ≤ 0xdfff then
            return (Char.ofNat (0x10000 + (high - 0xd800) * 0x400 + (low - 0xdc00)), rest)
          else faultBefore .loneSurrogate rest

/-- The character of a `\u` escape behind the letter. -/
def unicodeEscape (bs : Bytes) : Except Fault (Char × Bytes) := do
  let (n, rest) ← hexFour bs
  if 0xdc00 ≤ n ∧ n ≤ 0xdfff then faultBefore .loneSurrogate rest
  else if 0xd800 ≤ n ∧ n ≤ 0xdbff then lowSurrogate n rest
  else return (Char.ofNat n, rest)

/-- The character that a letter behind a backslash stands for. -/
def shortEscape? (b : UInt8) : Option Char :=
  if b = code '"' then some '"'
  else if b = code '\\' then some '\\'
  else if b = code '/' then some '/'
  else if b = code 'b' then some '\x08'
  else if b = code 'f' then some '\x0c'
  else if b = code 'n' then some '\n'
  else if b = code 'r' then some '\r'
  else if b = code 't' then some '\t'
  else none

/-- An escape behind the backslash. -/
def escape : Read Char
  | [] => atEnd .endInString
  | b :: rest =>
    match shortEscape? b with
    | some c => .ok (c, rest)
    | none => if b = code 'u' then unicodeEscape rest else faultBefore .invalidEscape rest

/-- The bytes of a string of at most `limit` characters up to its closing quote, escapes decoded. -/
def stringBytes : (limit : Nat) → Read Bytes
  | 0, _ | _, [] => atEnd .endInString
  | limit + 1, b :: bs =>
    if b = code '"' then .ok ([], bs)
    else if b = code '\\' then do
      let (c, rest) ← escape bs
      let (others, rest) ← stringBytes limit rest
      return (String.utf8EncodeChar c ++ others, rest)
    else if b < 0x20 then faultBefore .controlCharacter bs
    else do
      let (others, rest) ← stringBytes limit bs
      return (b :: others, rest)

/-- A string behind its opening quote. -/
def string (bs : Bytes) : Except Fault (String × Bytes) := do
  let (decoded, rest) ← stringBytes bs.length bs
  match Text.decode decoded with
  | (cs, []) => return (String.ofList cs, rest)
  | (_, malformed) => .error ⟨.invalidUnicode, rest.length + malformed.length⟩

end TestTriage.Json
