import TestTriage.Text.Split

/-!
# Paths

A path keeps the text it was given as and is compared by its parts: repeated and trailing slashes
and an inner `.` are no parts, while a leading `/`, a leading `.` and every `..` are.  `fileName?`,
`withFileName`, `join` and `endsWith` go by the parts as well.
-/

namespace TestTriage

/-- A path as it was written. -/
structure Path where
  text : String
  deriving Repr, DecidableEq, Inhabited

namespace Path

/-! ## Segments and parts -/

/-- What a path is made of. -/
inductive Part where
  /-- A leading slash. -/
  | root
  /-- A leading `.`. -/
  | here
  | parent
  | name (name : String)
  deriving Repr, DecidableEq

/-- Does the segment add nothing where it is not the first? -/
def isIdle (segment : List Char) : Bool := segment.isEmpty || segment == ['.']

/-- The part that a segment in the middle of a path is. -/
def innerPart? (segment : List Char) : Option Part :=
  if isIdle segment then none
  else if segment = ['.', '.'] then some .parent
  else some (.name (String.ofList segment))

/-- The part that the first segment is; `alone` if no slash follows. -/
def firstPart? (segment : List Char) (alone : Bool) : Option Part :=
  if segment.isEmpty then if alone then none else some .root
  else if segment = ['.'] then some .here
  else innerPart? segment

/-- The pieces of the path between slashes. -/
def segments (p : Path) : List (List Char) := Text.split '/' p.text.toList

/-- The parts of a path, by which it is compared. -/
def parts (p : Path) : List Part :=
  match p.segments with
  | [] => []
  | first :: rest => (firstPart? first rest.isEmpty).toList ++ rest.filterMap innerPart?

/-- Do two paths have the same parts? -/
def same (p q : Path) : Bool := p.parts == q.parts

/-- Are the last parts of `p` those of `q`? -/
def endsWith (p q : Path) : Bool := q.parts.isSuffixOf p.parts

/-! ## File names -/

/-- The last part, if it is a name. -/
def fileName? (p : Path) : Option String :=
  match p.parts.getLast? with
  | some (.name n) => some n
  | _ => none

def isAbsolute (p : Path) : Bool := p.text.toList.head? == some '/'

/-- The path with another one behind it; an absolute one replaces it. -/
def join (p q : Path) : Path :=
  if q.isAbsolute || p.text.isEmpty then q
  else if p.text.toList.getLast? = some '/' then ⟨p.text ++ q.text⟩
  else ⟨p.text ++ "/" ++ q.text⟩

/-- The segments without those at the end that add nothing. -/
def dropIdleEnd (segments : List (List Char)) : List (List Char) :=
  (segments.reverse.dropWhile isIdle).reverse

/-- The text in front of the last part, as it was written up to the part before. -/
def parentText (p : Path) : String :=
  match p.segments with
  | [] => ""
  | first :: rest =>
    match (dropIdleEnd rest).reverse with
    | [] => ""
    | _ :: others =>
      match dropIdleEnd others.reverse with
      | [] => if first.isEmpty then "/" else String.ofList first
      | inner => "/".intercalate ((first :: inner).map String.ofList)

/-- The path with another file name, if it has one. -/
def withFileName (p : Path) (name : String) : Path := join ⟨p.parentText⟩ ⟨name⟩

end Path

end TestTriage
