import TestTriage.Json.Reader

/-!
# Skipping JSON values

A value that nobody asks for is passed over.  It may nest as deep as it likes: the open lists and
objects are kept on a stack.  Numbers may be of any size, and what a string spells is not looked at.
-/

namespace TestTriage.Json

open TestTriage.Text (Bytes)

/-! ## Scalars -/

/-- The bytes behind an exponent, of which the letter has been read. -/
def skipExponent (bs : Bytes) : Except Fault Bytes :=
  let bs := match bs with
    | b :: rest => if b = code '+' ∨ b = code '-' then rest else bs
    | [] => []
  match bs with
  | [] => atEnd .invalidNumber
  | b :: rest => if isDigit b then .ok (rest.dropWhile isDigit) else faultBefore .invalidNumber rest

/-- The bytes behind an exponent, if there is one. -/
def skipExponent? (bs : Bytes) : Except Fault Bytes :=
  match bs with
  | b :: rest => if b = code 'e' ∨ b = code 'E' then skipExponent rest else .ok bs
  | [] => .ok []

/-- The bytes behind what follows the integer digits. -/
def skipFraction (bs : Bytes) : Except Fault Bytes :=
  match bs with
  | b :: rest =>
    if b = code '.' then
      match rest with
      | [] => atEnd .invalidNumber
      | d :: behind =>
        if isDigit d then skipExponent? (behind.dropWhile isDigit)
        else faultBefore .invalidNumber behind
    else skipExponent? bs
  | [] => .ok []

/-- The bytes behind a number without its sign. -/
def skipNumber : Bytes → Except Fault Bytes
  | [] => atEnd .invalidNumber
  | b :: rest =>
    if b = code '0' then
      match rest with
      | d :: behind => if isDigit d then faultBefore .invalidNumber behind else skipFraction rest
      | [] => .ok []
    else if isDigit b then skipFraction (rest.dropWhile isDigit)
    else faultBefore .invalidNumber rest

/-- The bytes behind a string of at most so many bytes, of which the opening quote has been read. -/
def skipString : (limit : Nat) → Bytes → Except Fault Bytes
  | 0, _ | _, [] => atEnd .endInString
  | limit + 1, b :: bs =>
    if b = code '"' then .ok bs
    else if b = code '\\' then
      match bs with
      | [] => atEnd .endInString
      | e :: rest =>
        if e = code 'u' then do
          let (_, rest) ← hexFour rest
          skipString limit rest
        else if (shortEscape? e).isSome then skipString limit rest
        else faultBefore .invalidEscape rest
    else if b < 0x20 then faultBefore .controlCharacter (b :: bs)
    else skipString limit bs

/-! ## Values -/

/-- What has been opened and not yet closed. -/
inductive Frame where
  | list
  | object
  deriving Repr, DecidableEq

namespace Frame

def closing : Frame → UInt8
  | .list => code ']'
  | .object => code '\x7d'

/-- The text ends within. -/
def unfinished : Frame → Cause
  | .list => .endInList
  | .object => .endInObject

/-- Something else stands behind a value. -/
def unseparated : Frame → Cause
  | .list => .expectedListEnd
  | .object => .expectedObjectEnd

/-- The bytes in front of the next value: in an object a key and a colon are skipped. -/
def toValue (frame : Frame) (bs : Bytes) : Except Fault Bytes :=
  match frame with
  | .list => .ok bs
  | .object =>
    match skipSpace bs with
    | [] => atEnd .endInObject
    | b :: rest =>
      if b = code '"' then do colon (← skipString rest.length rest)
      else faultBefore .keyNotString rest

end Frame

/-- The bytes behind a value within some frames, and behind these.  `behind` says whether the value
itself has been read. -/
def skipWithin : (limit : Nat) → (behind : Bool) → List Frame → Bytes → Except Fault Bytes
  | _, true, [], bs => .ok bs
  | 0, _, _, bs => .ok bs
  | limit + 1, true, frame :: frames, bs =>
    match skipSpace bs with
    | [] => atEnd frame.unfinished
    | b :: rest =>
      if b = code ',' then do skipWithin limit false (frame :: frames) (← frame.toValue rest)
      else if b = frame.closing then skipWithin limit true frames rest
      else faultBefore frame.unseparated rest
  | limit + 1, false, frames, bs =>
    let opened (frame : Frame) (rest : Bytes) : Except Fault Bytes :=
      match skipSpace rest with
      | [] => atEnd frame.unfinished
      | b :: behind =>
        if b = frame.closing then skipWithin limit true frames behind
        else do skipWithin limit false (frame :: frames) (← frame.toValue (b :: behind))
    match skipSpace bs with
    | [] => atEnd .endInValue
    | b :: rest =>
      if b = code '[' then opened .list rest
      else if b = code '\x7b' then opened .object rest
      else do
        let rest ←
          if b = code 'n' then word ['u', 'l', 'l'] rest
          else if b = code 't' then word ['r', 'u', 'e'] rest
          else if b = code 'f' then word ['a', 'l', 's', 'e'] rest
          else if b = code '-' then skipNumber rest
          else if isDigit b then skipNumber (b :: rest)
          else if b = code '"' then skipString rest.length rest
          else faultBefore .expectedValue rest
        skipWithin limit true frames rest

/-- The bytes behind a value. -/
def skip (bs : Bytes) : Except Fault Bytes := skipWithin (bs.length + 1) false [] bs

end TestTriage.Json
