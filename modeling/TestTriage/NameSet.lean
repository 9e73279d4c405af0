import TestTriage.Text.Utf8

/-!
# Sets of names

A set of names is kept as a list in increasing order of the names' UTF-8 bytes, so it can be listed
in order and compared as a value.
-/

namespace TestTriage

open Text (utf8)

/-- A finite set of names. -/
structure NameSet where
  /-- The names in increasing order. -/
  names : List String
  deriving Repr, DecidableEq

namespace NameSet

def empty : NameSet := ⟨[]⟩

instance : EmptyCollection NameSet := ⟨empty⟩

def toList (s : NameSet) : List String := s.names

/-- Number of names in the set. -/
def size (s : NameSet) : Nat := s.names.length

def isEmpty (s : NameSet) : Bool := s.names.isEmpty

def contains (s : NameSet) (name : String) : Bool := s.names.contains name

/-- A list in order with a new name at its place. -/
def place (name : String) : List String → List String
  | [] => [name]
  | n :: ns => if utf8 name < utf8 n then name :: n :: ns else n :: place name ns

/-- The set with one more name. -/
def insert (s : NameSet) (name : String) : NameSet :=
  if s.contains name then s else ⟨place name s.names⟩

/-- Adds a name and says whether it was new. -/
def insertNew (s : NameSet) (name : String) : Bool × NameSet := (!s.contains name, s.insert name)

/-- The set with all names of a list added. -/
def insertAll (s : NameSet) (names : List String) : NameSet := names.foldl insert s

/-- The set of the names in a list. -/
def ofList (names : List String) : NameSet := empty.insertAll names

/-- A list without the names that the next one repeats. -/
def dropRepeats : List String → List String
  | [] => []
  | n :: ns => if ns.head? = some n then dropRepeats ns else n :: dropRepeats ns

/-- The set of the names in a list, which are put in order all at once and not one by one. -/
def gather (names : List String) : NameSet :=
  ⟨dropRepeats (names.mergeSort fun n m => utf8 n ≤ utf8 m)⟩

/-- The union of two sets. -/
def union (s t : NameSet) : NameSet := s.insertAll t.names

end NameSet

end TestTriage
