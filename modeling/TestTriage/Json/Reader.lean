import TestTriage.Json.Scalar

/-!
# Reading JSON values

Lists and objects are read by loops that are told how to read an item or a member, so that the same
loops serve values of any kind and records with known fields.
-/

namespace TestTriage.Json

open TestTriage.Text (Bytes)

/-! ## Lists and objects -/

/-- What stands next in a list. -/
inductive Next where
  /-- An item, with which these bytes begin. -/
  | item (bs : Bytes)
  /-- The closing bracket, with these bytes behind it. -/
  | close (rest : Bytes)

/-- What stands next in a list, behind its opening bracket or behind an item. -/
def next (first : Bool) (bs : Bytes) : Except Fault Next :=
  match skipSpace bs with
  | [] => atEnd .endInList
  | b :: rest =>
    if b = code ']' then .ok (.close rest)
    else if first then .ok (.item (b :: rest))
    else if b = code ',' then
      match skipSpace rest with
      | [] => atEnd .endInValue
      | c :: behind =>
        if c = code ']' then faultBefore .trailingComma behind else .ok (.item (c :: behind))
    else faultBefore .expectedListEnd rest

/-- The items of a list behind its opening bracket, up to the closing one. -/
def items (item : Read α) : (limit : Nat) → (first : Bool) → Read (List α)
  | 0, _, _ => atEnd .endInList
  | limit + 1, first, bs => do
    match ← next first bs with
    | .close rest => return ([], rest)
    | .item bs =>
      let (x, rest) ← item bs
      let (xs, rest) ← items item limit false rest
      return (x :: xs, rest)

/-- The colon behind a key. -/
def colon (bs : Bytes) : Except Fault Bytes :=
  match skipSpace bs with
  | [] => atEnd .endInObject
  | b :: rest => if b = code ':' then .ok rest else faultBefore .expectedColon rest

/-- The members of an object behind its opening brace, up to the closing one.  `member` is given
what has been gathered, the key, and the bytes behind the key. -/
def members (member : σ → String → Read σ) : (limit : Nat) → (first : Bool) → σ → Read σ
  | 0, _, _, _ => atEnd .endInObject
  | limit + 1, first, gathered, bs =>
    let more (bs : Bytes) : Except Fault (σ × Bytes) := do
      let (key, rest) ← string bs
      let (gathered, rest) ← member gathered key rest
      members member limit false gathered rest
    match skipSpace bs with
    | [] => atEnd .endInObject
    | b :: rest =>
      if b = code '\x7d' then .ok (gathered, rest)
      else if first then
        if b = code '"' then more rest else faultBefore .keyNotString rest
      else if b = code ',' then
        match skipSpace rest with
        | [] => atEnd .endInValue
        | c :: behind =>
          if c = code '"' then more behind
          else if c = code '\x7d' then faultBefore .trailingComma behind
          else faultBefore .keyNotString behind
      else faultBefore .expectedObjectEnd rest

/-! ## Values -/

/-- A member with any value, gathered in reverse. -/
def anyMember (value : Read Value) (gathered : List (String × Value)) (key : String) :
    Read (List (String × Value)) := fun bs => do
  let (v, rest) ← value (← colon bs)
  return ((key, v) :: gathered, rest)

/-- The members of an object behind its opening brace, with their values. -/
def objectMembers (value : Read Value) (bs : Bytes) :
    Except Fault (List (String × Value) × Bytes) := do
  let (gathered, rest) ← members (anyMember value) (bs.length + 1) true [] bs
  return (gathered.reverse, rest)

/-- A value; lists and objects are refused unless `inner` reads their items. -/
def valueWith (inner : Option (Read Value)) : Read Value := fun bs =>
  match skipSpace bs with
  | [] => atEnd .endInValue
  | b :: rest =>
    if b = code 'n' then do return (.null, ← word ['u', 'l', 'l'] rest)
    else if b = code 't' then do return (.boolean true, ← word ['r', 'u', 'e'] rest)
    else if b = code 'f' then do return (.boolean false, ← word ['a', 'l', 's', 'e'] rest)
    else if b = code '-' ∨ isDigit b then do
      let (n, rest) ← number (b :: rest)
      return (.number n, rest)
    else if b = code '"' then do
      let (s, rest) ← string rest
      return (.string s, rest)
    else if b = code '[' then
      match inner with
      | none => faultBefore .tooDeep rest
      | some item => do
        let (xs, rest) ← items item (rest.length + 1) true rest
        return (.array xs, rest)
    else if b = code '\x7b' then
      match inner with
      | none => faultBefore .tooDeep rest
      | some value => do
        let (ms, rest) ← objectMembers value rest
        return (.object ms, rest)
    else faultBefore .expectedValue rest

/-- A value in which lists and objects nest at most so deep. -/
def value : (depth : Nat) → Read Value
  | 0 => valueWith none
  | depth + 1 => valueWith (some (value depth))

/-- How deep lists and objects may nest. -/
def depthLimit : Nat := 127

/-! ## Other types than the expected one -/

/-- Reads a value that is not of the expected type and says so.  Lists and objects are not read. -/
def mismatch (expected : String) (bs : Bytes) : Except Fault α :=
  let wrong (found : Found) (rest : Bytes) : Except Fault α :=
    faultBefore (.wrongType found expected) rest
  match bs with
  | [] => atEnd .endInValue
  | b :: rest =>
    if b = code 'n' then do wrong .null (← word ['u', 'l', 'l'] rest)
    else if b = code 't' then do wrong (.boolean true) (← word ['r', 'u', 'e'] rest)
    else if b = code 'f' then do wrong (.boolean false) (← word ['a', 'l', 's', 'e'] rest)
    else if b = code '-' ∨ isDigit b then do
      let (n, rest) ← number (b :: rest)
      wrong (.number n) rest
    else if b = code '"' then do
      let (s, rest) ← string rest
      wrong (.string s) rest
    else if b = code '[' then wrong .sequence (b :: rest)
    else if b = code '\x7b' then wrong .map (b :: rest)
    else faultBefore .expectedValue rest

/-- An object, with its members as values. -/
def object (bs : Bytes) : Except Fault (List (String × Value) × Bytes) :=
  match skipSpace bs with
  | b :: rest =>
    if b = code '\x7b' then objectMembers (value (depthLimit - 1)) rest
    else mismatch "a map" (b :: rest)
  | [] => atEnd .endInValue

/-- Reads a whole text; only white space may follow. -/
def whole (read : Read α) (text : Bytes) : Except Error α :=
  match read text with
  | .error fault => .error (fault.locate text)
  | .ok (x, rest) =>
    match skipSpace rest with
    | [] => .ok x
    | _ :: behind => .error (Fault.locate ⟨.trailingCharacters, behind.length⟩ text)

/-- The members of the object that a whole text is. -/
def readObject (text : Bytes) : Except Error (List (String × Value)) := whole object text

end TestTriage.Json
