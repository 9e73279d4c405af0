import TestTriage.Toml.Reader

/-!
# TOML documents

A document is a list of lines: keys with values, headers, comments.  Values go to the table that the
last header names; that table takes its place in the document when the next header comes.
-/

namespace TestTriage.Toml

open TestTriage.Text (Bytes)

/-- A document up to some line. -/
structure Draft where
  root : Table Value
  /-- The table that values go to. -/
  current : Table Value
  /-- The keys that lead to it. -/
  path : List Key
  /-- Did its header stand in double brackets? -/
  repeated : Bool

namespace Draft

def start : Draft :=
  ⟨.empty false false false none, .empty false false false none, [], false⟩

/-- The fault of a header whose last key is taken. -/
def taken (path : List Key) (k : Key) : Reason :=
  .duplicateKey k.name (some (path.dropLast.map (·.name)))

/-- The piece of the document from the first of some tables to the last. -/
def spanAll (tables : List (Table Value)) : Option Span := do
  let first ← (← tables.head?).span
  let last ← (← tables.getLast?).span
  return ⟨first.left, last.behind⟩

/-- A table with the current one in its place, at the last key of its header. -/
def place (d : Draft) (k : Key) (t : Table Value) : Except Reason (Table Value) :=
  match t.find? k.name with
  | none =>
    return t.append k (if d.repeated then .tables (spanAll [d.current]) [d.current]
      else .table d.current)
  | some (.tables _ ts) =>
    if d.repeated then
      let ts := ts ++ [d.current]
      return t.replace k.name (.tables (spanAll ts) ts)
    else throw (taken d.path k)
  | some (.table old) =>
    if !d.repeated && old.implied then return t.replace k.name (.table d.current)
    else throw (taken d.path k)
  | some _ => throw (taken d.path k)

/-- The whole document, with the current table in its place. -/
def finish (d : Draft) : Except Reason (Table Value) :=
  match d.path.getLast? with
  | none => return d.current
  | some k => do
    let ((), root) ← d.root.descend false false (fun t => return ((), ← d.place k t)) []
      d.path.dropLast
    return root

/-- A header in single brackets.  A table that was only made on the way to others is taken out of
its place and gone on with. -/
def openTable (d : Draft) (path : List Key) (span : Span) : Except Reason Draft :=
  match path.getLast? with
  | none => return d
  | some k => do
    let (entries, root) ← (← d.finish).descend false false (fun t =>
      match t.find? k.name with
      | none => return ([], t)
      | some (.table old) =>
        if old.implied && !old.dotted then return (old.entries, t.erase k.name)
        else throw (taken path k)
      | some _ => throw (taken path k)) [] path.dropLast
    return ⟨root, ⟨false, false, false, some span, entries⟩, path, false⟩

/-- A header in double brackets. -/
def openRepeated (d : Draft) (path : List Key) (span : Span) : Except Reason Draft :=
  match path.getLast? with
  | none => return d
  | some k => do
    let ((), root) ← (← d.finish).descend false false (fun t =>
      match t.find? k.name with
      | none => return ((), t.append k (.tables none []))
      | some (.tables ..) => return ((), t)
      | some _ => throw (taken path k)) [] path.dropLast
    return ⟨root, .empty false false false (some span), path, true⟩

/-- A key and its value. -/
def add (d : Draft) (m : Member) : Except Reason Draft := do
  let span := match d.current.span, m.value.span? with
    | some s, some v => some ⟨s.left, v.behind⟩
    | s, _ => s
  let table : Table Value := { d.current with span }
  let current ← table.define false (some (d.path.map (·.name))) m.path m.key m.value
  return { d with current }

end Draft

/-! ## Reading -/

/-- A header, and what it is the header of. -/
def header (d : Draft) (bs : Bytes) : Except Fault (Draft × Bytes) := about .header do
  let (repeated, opening, closing) := match skip? ['[', '['] bs with
    | some rest => (true, rest, [']', ']'])
    | none => (false, bs.drop 1, [']'])
  if bs.length < 2 then miss bs
  else
    let (path, rest) ← settled (key opening)
    let rest ← expecting ["`.`", if repeated then "`]]`" else "`]`"]
      (settled (literal closing rest))
    let behind ← expecting ["newline", "`#`"] (settled (lineRest rest))
    let next := if repeated then d.openRepeated path (spanOf bs rest)
      else d.openTable path (spanOf bs rest)
    match next with
    | .ok d => return (d, behind)
    | .error reason => refuse reason bs

/-- A line with a key and its value. -/
def entry (d : Draft) (bs : Bytes) : Except Fault (Draft × Bytes) := do
  let (m, rest) ← member (value (depthLimit - 1))
    (fun rest => expecting ["newline", "`#`"] (lineRest rest)) bs
  match d.add m with
  | .ok d => return (d, rest)
  | .error reason => refuse reason bs

/-- The lines of a document behind some others. -/
def lines : (limit : Nat) → Draft → Bytes → Except Fault Draft
  | 0, d, _ => .ok d
  | limit + 1, d, bs =>
    match skipBlanks bs with
    | [] => .ok d
    | b :: rest =>
      if b = code '#' then do lines limit d (← lineRest (b :: rest))
      else if b = code '[' then do
        let (d, rest) ← header d (b :: rest)
        lines limit d rest
      else match newline? (b :: rest) with
        | some behind => lines limit d behind
        | none =>
          if b = code '\r' then miss (b :: rest)
          else do
            let (d, rest) ← entry d (b :: rest)
            lines limit d rest

/-- The bytes behind a byte order mark. -/
def skipMark (bs : Bytes) : Bytes :=
  match bs with
  | 0xef :: 0xbb :: 0xbf :: rest => rest
  | _ => bs

/-- The table that a document is. -/
def parse (document : Bytes) : Except Error (Table Value) :=
  let wrong (f : Fault) : Error :=
    let size := ((Text.decodeChar? (document.drop (document.length - f.left))).map fun (_, rest) =>
      f.left - rest.length).getD 1
    ⟨document, ⟨f.left, f.left - size⟩, .malformed f.subject f.expected f.reason⟩
  match lines (document.length + 1) .start (skipMark document) with
  | .error f => .error (wrong f)
  | .ok d =>
    match d.finish with
    | .ok t => .ok t
    | .error reason => .error (wrong ⟨0, none, [], some reason, true⟩)

end TestTriage.Toml
