import TestTriage.Toml.Value

/-!
# Reading TOML keys and values

A reader takes the bytes in front of it and yields what it has read with the bytes behind.  A fault
is final once the bytes in front of it settle what should have stood there; after any other fault
the caller may still read the same bytes as something else.
-/

namespace TestTriage.Toml

open TestTriage.Text (Bytes)
open TestTriage.Decimal (Binary64)

/-! ## Faults -/

/-- A fault and the number of bytes behind the place it was found at. -/
structure Fault where
  left : Nat
  subject : Option Subject
  expected : List String
  reason : Option Reason
  final : Bool
  deriving Repr, DecidableEq

/-- Reads a value from the front of some bytes and yields it with the bytes behind it. -/
abbrev Read (α : Type) := Bytes → Except Fault (α × Bytes)

/-- Nothing of the kind stands in front of these bytes. -/
def miss (bs : Bytes) : Except Fault α := .error ⟨bs.length, none, [], none, false⟩

/-- Something of the kind stands in front of these bytes, but it has no place there. -/
def refuse (reason : Reason) (bs : Bytes) : Except Fault α :=
  .error ⟨bs.length, none, [], some reason, false⟩

/-- The outcome, whose fault is final. -/
def settled (r : Except Fault α) : Except Fault α := r.mapError fun f => { f with final := true }

/-- The outcome, whose fault is about a subject unless it is about a smaller one. -/
def about (subject : Subject) (r : Except Fault α) : Except Fault α :=
  r.mapError fun f => { f with subject := f.subject.or (some subject) }

/-- The outcome, whose fault tells what else was expected. -/
def expecting (what : List String) (r : Except Fault α) : Except Fault α :=
  r.mapError fun f => { f with expected := f.expected ++ what }

/-- The outcome, or none if its fault is not final. -/
def possibly (r : Except Fault α) : Except Fault (Option α) :=
  match r with
  | .ok a => .ok (some a)
  | .error f => if f.final then .error f else .ok none

/-- The first outcome, or the second if the first is a fault that is not final. -/
def orElse (r : Except Fault α) (other : Unit → Except Fault α) : Except Fault α :=
  match r with
  | .error f => if f.final then .error f else other ()
  | .ok a => .ok a

/-- The piece of a document between what is left at its start and what is left behind it. -/
def spanOf (start behind : Bytes) : Span := ⟨start.length, behind.length⟩

/-! ## Bytes -/

def code (c : Char) : UInt8 := c.toNat.toUInt8

def isDigit (b : UInt8) : Bool := code '0' ≤ b && b ≤ code '9'

def isHexDigit (b : UInt8) : Bool :=
  isDigit b || (code 'a' ≤ b && b ≤ code 'f') || (code 'A' ≤ b && b ≤ code 'F')

def isOctalDigit (b : UInt8) : Bool := code '0' ≤ b && b ≤ code '7'

def isBinaryDigit (b : UInt8) : Bool := b == code '0' || b == code '1'

def digitValue (b : UInt8) : Nat :=
  if isDigit b then b.toNat - '0'.toNat
  else if code 'a' ≤ b then b.toNat - 'a'.toNat + 10
  else b.toNat - 'A'.toNat + 10

def isBlank (b : UInt8) : Bool := b == code ' ' || b == code '\t'

/-- Bytes that text within a line is made of. -/
def isPlain (b : UInt8) : Bool := b == code '\t' || (code ' ' ≤ b && b ≠ 0x7f)

def isBareKeyByte (b : UInt8) : Bool :=
  isDigit b || (code 'a' ≤ b && b ≤ code 'z') || (code 'A' ≤ b && b ≤ code 'Z')
    || b == code '-' || b == code '_'

def skipBlanks (bs : Bytes) : Bytes := bs.dropWhile isBlank

/-- The given characters at the front. -/
def skip? : (cs : List Char) → Bytes → Option Bytes
  | [], bs => some bs
  | _ :: _, [] => none
  | c :: cs, b :: bs => if b = code c then skip? cs bs else none

/-- One of the given characters at the front. -/
def oneOf? (cs : List Char) : Bytes → Option Bytes
  | [] => none
  | b :: bs => if cs.any (b == code ·) then some bs else none

/-- The given characters. -/
def literal (cs : List Char) (bs : Bytes) : Except Fault Bytes :=
  match skip? cs bs with
  | some rest => .ok rest
  | none => miss bs

/-- The text that some bytes of a document spell. -/
def spelled (bs : Bytes) : String := String.ofList (Text.decode bs).1

/-! ## Lines -/

/-- An end of line at the front. -/
def newline? (bs : Bytes) : Option Bytes :=
  (skip? ['\n'] bs).or (skip? ['\r', '\n'] bs)

/-- The bytes behind a comment, if there is one at the front. -/
def skipComment (bs : Bytes) : Bytes :=
  match bs with
  | b :: rest => if b = code '#' then rest.dropWhile isPlain else bs
  | [] => []

/-- The rest of a line: blanks, a comment, and the end of the line or of the document. -/
def lineRest (bs : Bytes) : Except Fault Bytes :=
  match skipComment (skipBlanks bs) with
  | [] => .ok []
  | rest => match newline? rest with
    | some behind => .ok behind
    | none => miss rest

/-- Blanks, comments and ends of lines. -/
def skipLines : (limit : Nat) → Bytes → Except Fault Bytes
  | 0, bs => .ok bs
  | limit + 1, bs =>
    match skipBlanks bs with
    | [] => .ok []
    | b :: rest =>
      if b = code '#' then
        let behind := skipComment (b :: rest)
        match newline? behind with
        | some behind => skipLines limit behind
        | none => miss behind
      else if b = code '\n' ∨ b = code '\r' then
        match newline? (b :: rest) with
        | some behind => skipLines limit behind
        | none => miss (b :: rest)
      else .ok (b :: rest)

/-! ## Strings -/

/-- A character given by so many hexadecimal digits. -/
def hexCode (size : Nat) (bs : Bytes) : Except Fault (Char × Bytes) :=
  let digits := (bs.take size).takeWhile isHexDigit
  if digits.length < size then miss bs
  else
    let n := digits.foldl (fun n b => n * 16 + digitValue b) 0
    if n.isValidChar then .ok (Char.ofNat n, bs.drop size) else refuse .outOfRange bs

/-- What may stand behind a backslash. -/
def escapeNames : List String := ["`b`", "`f`", "`n`", "`r`", "`t`", "`u`", "`U`", "`\\`", "`\"`"]

/-- An escape behind the backslash. -/
def escape : Read Char
  | [] => miss []
  | b :: rest =>
    if b = code 'b' then .ok ('\x08', rest)
    else if b = code 'f' then .ok ('\x0c', rest)
    else if b = code 'n' then .ok ('\n', rest)
    else if b = code 'r' then .ok ('\r', rest)
    else if b = code 't' then .ok ('\t', rest)
    else if b = code '\\' then .ok ('\\', rest)
    else if b = code '"' then .ok ('"', rest)
    else if b = code 'u' then about .shortCode (settled (hexCode 4 rest))
    else if b = code 'U' then about .longCode (settled (hexCode 8 rest))
    else expecting escapeNames (about .escape (settled (miss rest)))

/-- The bytes of a string in double quotes, behind the opening one. -/
def basicBytes : (limit : Nat) → Read Bytes
  | 0, bs => settled (miss bs)
  | _, [] => about .basicString (settled (miss []))
  | limit + 1, b :: bs =>
    if b = code '"' then .ok ([], bs)
    else if b = code '\\' then do
      match ← possibly (escape bs) with
      | none => about .basicString (settled (miss (b :: bs)))
      | some (c, rest) =>
        let (others, rest) ← basicBytes limit rest
        return (String.utf8EncodeChar c ++ others, rest)
    else if isPlain b then do
      let (others, rest) ← basicBytes limit bs
      return (b :: others, rest)
    else about .basicString (settled (miss (b :: bs)))

/-- A string in double quotes, behind the opening one. -/
def basicString (bs : Bytes) : Except Fault (String × Bytes) := do
  let (decoded, rest) ← basicBytes (bs.length + 1) bs
  return (spelled decoded, rest)

/-- A string in single quotes, behind the opening one. -/
def literalString (bs : Bytes) : Except Fault (String × Bytes) :=
  let body := bs.takeWhile fun b => isPlain b && b ≠ code '\''
  let rest := bs.dropWhile fun b => isPlain b && b ≠ code '\''
  match skip? ['\''] rest with
  | some behind => .ok (spelled body, behind)
  | none => about .literalString (settled (miss rest))

/-- The quotes at the front that belong to a string of several lines, and the bytes behind its end;
none if the string goes on. -/
def longEnd? (quote : Char) (bs : Bytes) : Option (Bytes × Bytes) :=
  let quotes := bs.takeWhile (· == code quote)
  if quotes.length < 3 then none
  else
    let extra := min (quotes.length - 3) 2
    some (quotes.take extra, bs.drop (extra + 3))

/-- The blanks and ends of lines that a backslash at the end of a line takes away. -/
def lineJoin? (bs : Bytes) : Option Bytes :=
  (newline? (skipBlanks bs)).map fun rest =>
    rest.dropWhile fun b => isBlank b || b == code '\n' || b == code '\r'

/-- The bytes of a string of several lines, behind its opening quotes.  Escapes count in double
quotes only. -/
def longBytes (subject : Subject) (quote : Char) : (limit : Nat) → Read Bytes
  | 0, bs => settled (miss bs)
  | _, [] => about subject (settled (miss []))
  | limit + 1, b :: bs =>
    let broken : Except Fault (Bytes × Bytes) := about subject (settled (miss (b :: bs)))
    let andMore (piece : Bytes) (rest : Bytes) : Except Fault (Bytes × Bytes) := do
      let (others, rest) ← longBytes subject quote limit rest
      return (piece ++ others, rest)
    if b = code quote then
      match longEnd? quote (b :: bs) with
      | some (quotes, rest) => .ok (quotes, rest)
      | none => if (bs.dropWhile (· == code quote)).isEmpty then broken else andMore [b] bs
    else if b = code '\\' ∧ quote = '"' then
      match lineJoin? bs with
      | some rest => andMore [] rest
      | none => do
        match ← possibly (about subject (escape bs)) with
        | none => broken
        | some (c, rest) => andMore (String.utf8EncodeChar c) rest
    else if isPlain b then andMore [b] bs
    else match newline? (b :: bs) with
      | some rest => andMore [code '\n'] rest
      | none => broken

/-- A string of several lines, behind its opening quotes; an end of line right behind them does not
count. -/
def longString (subject : Subject) (quote : Char) (bs : Bytes) : Except Fault (String × Bytes) := do
  let bs := (newline? bs).getD bs
  let (decoded, rest) ← longBytes subject quote (bs.length + 1) bs
  return (spelled decoded, rest)

/-- A string that begins with one of the two quotes. -/
def string (bs : Bytes) : Except Fault (String × Bytes) :=
  match skip? ['"', '"', '"'] bs, skip? ['\'', '\'', '\''] bs with
  | some rest, _ => longString .longBasicString '"' rest
  | none, some rest => longString .longLiteralString '\'' rest
  | none, none =>
    match skip? ['"'] bs, skip? ['\''] bs with
    | some rest, _ => basicString rest
    | none, some rest => literalString rest
    | none, none => miss bs

/-! ## Keys -/

/-- One part of a key. -/
def simpleKey (bs : Bytes) : Except Fault (Key × Bytes) :=
  let name : Except Fault (String × Bytes) :=
    match skip? ['"'] bs, skip? ['\''] bs with
    | some rest, _ => basicString rest
    | none, some rest => literalString rest
    | none, none =>
      match bs.takeWhile isBareKeyByte with
      | [] => miss bs
      | bare => .ok (spelled bare, bs.dropWhile isBareKeyByte)
  name.map fun (name, rest) => (⟨name, spanOf bs rest⟩, rest)

/-- The parts of a key behind the first one.  A dot that no part follows is left alone. -/
def moreKeys : (limit : Nat) → Read (List Key)
  | 0, bs => .ok ([], bs)
  | limit + 1, bs =>
    match skip? ['.'] bs with
    | none => .ok ([], bs)
    | some behind => do
      match ← possibly (simpleKey (skipBlanks behind)) with
      | none => return ([], bs)
      | some (k, rest) =>
        let (ks, rest) ← moreKeys limit (skipBlanks rest)
        return (k :: ks, rest)

/-- How deep keys and values may nest. -/
def depthLimit : Nat := 80

/-- A key, with the blanks around it. -/
def key (bs : Bytes) : Except Fault (List Key × Bytes) := about .key do
  let (k, rest) ← simpleKey (skipBlanks bs)
  let (ks, rest) ← moreKeys rest.length (skipBlanks rest)
  if ks.length + 1 < depthLimit then return (k :: ks, rest) else refuse .tooDeep bs

/-! ## Numbers -/

/-- Digits behind the first one; an underscore has to stand between two of them. -/
def moreDigits (isDigit : UInt8 → Bool) : (limit : Nat) → Read Bytes
  | 0, bs => .ok ([], bs)
  | _, [] => .ok ([], [])
  | limit + 1, b :: bs =>
    if isDigit b then do
      let (ds, rest) ← moreDigits isDigit limit bs
      return (b :: ds, rest)
    else if b = code '_' then
      match bs with
      | d :: rest =>
        if isDigit d then do
          let (ds, rest) ← moreDigits isDigit limit rest
          return (d :: ds, rest)
        else expecting ["digit"] (settled (miss bs))
      | [] => expecting ["digit"] (settled (miss []))
    else .ok ([], b :: bs)

/-- Digits, without the underscores between them. -/
def digits (isDigit : UInt8 → Bool) : Read Bytes
  | [] => miss []
  | b :: bs =>
    if isDigit b then do
      let (ds, rest) ← moreDigits isDigit bs.length bs
      return (b :: ds, rest)
    else miss (b :: bs)

/-- The number that digits of a base spell. -/
def valueOf (base : Nat) (ds : Bytes) : Nat := ds.foldl (fun n b => n * base + digitValue b) 0

/-- A sign, and whether it is a minus. -/
def sign (bs : Bytes) : Bool × Bytes :=
  match skip? ['-'] bs, skip? ['+'] bs with
  | some rest, _ => (true, rest)
  | none, some rest => (false, rest)
  | none, none => (false, bs)

/-- A sign and decimal digits, of which a first zero is the only one. -/
def decimalDigits (bs : Bytes) : Except Fault ((Bool × Bytes) × Bytes) := about .integer do
  let (negative, rest) := sign bs
  let (ds, rest) ← match oneOf? ['0'] rest with
    | some behind => .ok ([code '0'], behind)
    | none => digits isDigit rest
  return ((negative, ds), rest)

/-- The integer, if it has 64 bits. -/
def inRange (negative : Bool) (n : Nat) (start rest : Bytes) : Except Fault (Int × Bytes) :=
  if negative then
    if n ≤ Nat.pow 2 63 then .ok (-n, rest) else settled (refuse .tooSmall start)
  else if n < Nat.pow 2 63 then .ok (n, rest)
  else settled (refuse .tooLarge start)

/-- An integer of another base behind its mark. -/
def basedInteger (subject : Subject) (base : Nat) (isDigit : UInt8 → Bool) (start bs : Bytes) :
    Except Fault (Int × Bytes) := do
  let (ds, rest) ← about subject (settled (digits isDigit bs))
  inRange false (valueOf base ds) start rest

def integer (bs : Bytes) : Except Fault (Int × Bytes) :=
  match skip? ['0', 'x'] bs, skip? ['0', 'o'] bs, skip? ['0', 'b'] bs with
  | some rest, _, _ => basedInteger .hexadecimal 16 isHexDigit bs rest
  | none, some rest, _ => basedInteger .octal 8 isOctalDigit bs rest
  | none, none, some rest => basedInteger .binary 2 isBinaryDigit bs rest
  | none, none, none => do
    let ((negative, ds), rest) ← decimalDigits bs
    inRange negative (valueOf 10 ds) bs rest

/-- An exponent with its letter. -/
def exponent (bs : Bytes) : Except Fault (Int × Bytes) :=
  match oneOf? ['e', 'E'] bs with
  | none => miss bs
  | some rest => do
    let (negative, rest) := sign rest
    let (ds, rest) ← settled (digits isDigit rest)
    return (if negative then -(valueOf 10 ds : Int) else valueOf 10 ds, rest)

/-- Decimal places with their point. -/
def places (bs : Bytes) : Except Fault (Bytes × Bytes) :=
  match skip? ['.'] bs with
  | none => miss bs
  | some rest => expecting ["digit"] (settled (digits isDigit rest))

/-- The value of decimal digits and a power of ten, none if there is no finite one. -/
def finite? (ds : Bytes) (power : Int) : Option Binary64 :=
  let mantissa := valueOf 10 ds
  let size : Int := (Nat.toDigits 10 mantissa).length + power
  if mantissa = 0 ∨ size < -400 then some .zero
  else if 400 < size then none
  else Binary64.ofDecimal mantissa power

/-- The words that are numbers. -/
def specialReal (bs : Bytes) : Except Fault (Real × Bytes) :=
  let (negative, rest) := sign bs
  match skip? ['i', 'n', 'f'] rest, skip? ['n', 'a', 'n'] rest with
  | some behind, _ => .ok (.infinite negative, behind)
  | none, some behind => .ok (.notNumber, behind)
  | none, none => miss rest

/-- A number with decimal places or an exponent. -/
def pointedReal (bs : Bytes) : Except Fault (Real × Bytes) := do
  let ((negative, whole), rest) ← decimalDigits bs
  let (fraction, power, rest) ← match ← possibly (exponent rest) with
    | some (power, rest) => pure ([], power, rest)
    | none => do
      let (fraction, rest) ← places rest
      match ← possibly (exponent rest) with
      | some (power, rest) => pure (fraction, power, rest)
      | none => pure (fraction, 0, rest)
  match finite? (whole ++ fraction) (power - fraction.length) with
  | some v => return (.finite negative v, rest)
  | none => if negative then return (.infinite true, rest) else settled (miss bs)

def real (bs : Bytes) : Except Fault (Real × Bytes) :=
  about .real (orElse (pointedReal bs) fun _ => specialReal bs)

/-! ## Dates and times -/

/-- A number of so many digits within bounds. -/
def fixedDigits (size least most : Nat) (bs : Bytes) : Except Fault (Nat × Bytes) :=
  let ds := (bs.take size).takeWhile isDigit
  if ds.length < size then miss bs
  else
    let n := valueOf 10 ds
    if least ≤ n ∧ n ≤ most then .ok (n, bs.drop size) else refuse .outOfRange bs

/-- Days of a month. -/
def daysOf (year month : Nat) : Nat :=
  let leap := year % 4 = 0 ∧ (year % 100 ≠ 0 ∨ year % 400 = 0)
  if month = 2 then if leap then 29 else 28
  else if month = 4 ∨ month = 6 ∨ month = 9 ∨ month = 11 then 30
  else 31

/-- The bytes behind a date. -/
def date (bs : Bytes) : Except Fault Bytes := do
  let (year, rest) ← fixedDigits 4 0 9999 bs
  let rest ← literal ['-'] rest
  settled do
    let (month, rest) ← fixedDigits 2 1 12 rest
    let days ← literal ['-'] rest
    let (day, rest) ← fixedDigits 2 1 31 days
    if day ≤ daysOf year month then return rest else refuse .outOfRange days

/-- The bytes behind a time of day. -/
def time (bs : Bytes) : Except Fault Bytes := do
  let (_, rest) ← fixedDigits 2 0 23 bs
  let rest ← literal [':'] rest
  settled do
    let (_, rest) ← fixedDigits 2 0 59 rest
    let rest ← literal [':'] rest
    let (_, rest) ← fixedDigits 2 0 60 rest
    match rest with
    | b :: d :: _ =>
      if b = code '.' ∧ isDigit d then return (rest.drop 1).dropWhile isDigit else return rest
    | _ => return rest

/-- The bytes behind a distance from universal time. -/
def zone (bs : Bytes) : Except Fault Bytes :=
  match oneOf? ['Z', 'z'] bs with
  | some rest => .ok rest
  | none =>
    match oneOf? ['+', '-'] bs with
    | none => miss bs
    | some rest => settled do
      let (_, rest) ← fixedDigits 2 0 23 rest
      let rest ← literal [':'] rest
      let (_, rest) ← fixedDigits 2 0 59 rest
      return rest

/-- The bytes behind a date with its time, if it has one. -/
def dateTime (bs : Bytes) : Except Fault Bytes := do
  let rest ← date bs
  match oneOf? ['T', 't', ' '] rest with
  | none => return rest
  | some behind =>
    match ← possibly (time behind) with
    | none => return rest
    | some behind =>
      match ← possibly (zone behind) with
      | some behind => return behind
      | none => return behind

/-- The bytes behind a date, a time or both. -/
def moment (bs : Bytes) : Except Fault Bytes :=
  about .moment (orElse (dateTime bs) fun _ => time bs)

/-! ## Tables within values and documents -/

/-- Changes the table that a path of keys leads to, and yields what the change yields; missing
tables are made on the way.  `before` are the names that led here. -/
def Table.descend (inline dotted : Bool)
    (change : Table Value → Except Reason (β × Table Value)) :
    (before : List String) → List Key → Table Value → Except Reason (β × Table Value)
  | _, [], t => change t
  | before, k :: ks, t =>
    let names := before ++ [k.name]
    match t.find? k.name with
    | none => do
      let (b, child) ← descend inline dotted change names ks (.empty true dotted inline none)
      return (b, t.append k (.table child))
    | some (.table child) =>
      if child.inline ≠ inline then throw (.extendsValue names (Value.table child).typeName)
      else if dotted ∧ !child.implied then throw (.duplicateKey k.name none)
      else do
        let (b, child) ← descend inline dotted change names ks child
        return (b, t.replace k.name (.table child))
    | some (.tables span children) =>
      match children.getLast? with
      | none => throw (.duplicateKey k.name none)
      | some child => do
        let (b, child) ← descend inline dotted change names ks child
        return (b, t.replace k.name (.tables span (children.dropLast ++ [child])))
    | some v => throw (.extendsValue names v.typeName)

/-- The table with a value at a key, if it has none there; `owner` names the table in the
message. -/
def Table.define (inline : Bool) (owner : Option (List String)) (path : List Key) (k : Key)
    (v : Value) (t : Table Value) : Except Reason (Table Value) := do
  let ((), t) ← t.descend inline true (fun t =>
    if t.dotted = path.isEmpty then throw (.duplicateKey k.name none)
    else if (t.find? k.name).isSome then throw (.duplicateKey k.name owner)
    else return ((), t.append k v)) [] path
  return t

/-! ## Values -/

/-- A key and its value, with the path of keys in front of the last one. -/
structure Member where
  path : List Key
  key : Key
  value : Value

/-- A key and its value. -/
def member (value : Read Value) (behind : Bytes → Except Fault Bytes) (bs : Bytes) :
    Except Fault (Member × Bytes) := do
  let (ks, rest) ← key bs
  settled do
    let rest ← expecting ["`.`", "`=`"] (literal ['='] rest)
    let (v, rest) ← value (skipBlanks rest)
    let rest ← behind rest
    match ks.getLast? with
    | some k => return (⟨ks.dropLast, k, v⟩, rest)
    | none => miss bs

/-- Items with commas between them.  What is no item ends the list, and so does a comma in front of
it. -/
def separated (item : Read α) : (limit : Nat) → Read (List α)
  | 0, bs => .ok ([], bs)
  | limit + 1, bs => do
    match ← possibly (item bs) with
    | none => return ([], bs)
    | some (x, rest) =>
      match skip? [','] rest with
      | none => return ([x], rest)
      | some behind =>
        let (xs, last) ← separated item limit behind
        return (x :: xs, if xs.isEmpty then rest else last)

/-- The items of an array behind its opening bracket. -/
def arrayItems (value : Read Value) (bs : Bytes) : Except Fault (List Value × Bytes) := do
  let item : Read Value := fun bs => do
    let (v, rest) ← value (← skipLines bs.length bs)
    return (v, ← skipLines rest.length rest)
  let (vs, rest) ← separated item (bs.length + 1) bs
  let rest := if vs.isEmpty then rest else (skip? [','] rest).getD rest
  let rest ← settled (skipLines rest.length rest)
  let rest ← expecting ["`]`"] (about .array (settled (literal [']'] rest)))
  return (vs, rest)

/-- The table between braces, behind the opening one. -/
def inlineTable (value : Read Value) (start bs : Bytes) : Except Fault (Table Value × Bytes) := do
  let item : Read Member := member value fun rest => return skipBlanks rest
  let (ms, rest) ← separated item (bs.length + 1) bs
  let table := ms.foldlM (fun t m => t.define true none m.path m.key m.value)
    (Table.empty false false true none)
  match table with
  | .error reason => settled (refuse reason bs)
  | .ok t =>
    let rest ← expecting ["`\x7d`"]
      (about .inlineTable (settled (literal ['\x7d'] (skipBlanks rest))))
    return ({ t with span := some (spanOf start rest) }, rest)

/-- A value; arrays and tables are refused unless `inner` reads what they hold. -/
def valueWith (inner : Option (Read Value)) : Read Value
  | [] => miss []
  | b :: rest =>
    let bs := b :: rest
    let spanned {α : Type} (make : Span → α → Value) (r : Except Fault (α × Bytes)) :
        Except Fault (Value × Bytes) :=
      r.map fun (x, behind) => (make (spanOf bs behind) x, behind)
    let asString (r : Except Fault (Value × Bytes)) : Except Fault (Value × Bytes) :=
      expecting ["`\"`", "`'`"] (about .string r)
    let word (cs : List Char) (r : Except Fault (Value × Bytes)) : Except Fault (Value × Bytes) :=
      asString (match skip? cs bs with
        | some _ => r
        | none => settled (miss bs))
    if b = code '"' ∨ b = code '\'' then spanned .string (string bs)
    else if b = code '[' then
      match inner with
      | some value => spanned .array (arrayItems value rest)
      | none => settled (refuse .tooDeep rest)
    else if b = code '\x7b' then
      match inner with
      | some value => (inlineTable value bs rest).map fun (t, behind) => (.table t, behind)
      | none => settled (refuse .tooDeep rest)
    else if b = code '+' ∨ b = code '-' ∨ isDigit b then
      orElse ((moment bs).map fun behind => (.moment (spanOf bs behind), behind)) fun _ =>
      orElse (spanned .real (real bs)) fun _ => spanned .integer (integer bs)
    else if b = code '_' then expecting ["leading digit"] (spanned .integer (integer bs))
    else if b = code '.' then expecting ["leading digit"] (spanned .real (real bs))
    else if b = code 't' then
      word ['t', 'r', 'u', 'e'] (.ok (.boolean (spanOf bs (bs.drop 4)) true, bs.drop 4))
    else if b = code 'f' then
      word ['f', 'a', 'l', 's', 'e'] (.ok (.boolean (spanOf bs (bs.drop 5)) false, bs.drop 5))
    else if b = code 'i' ∨ b = code 'n' then asString (spanned .real (specialReal bs))
    else asString (miss bs)

/-- A value in which arrays and tables nest at most so deep. -/
def value : (depth : Nat) → Read Value
  | 0 => valueWith none
  | depth + 1 => valueWith (some (value depth))

end TestTriage.Toml
