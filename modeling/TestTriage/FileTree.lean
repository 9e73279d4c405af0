import TestTriage.Path
import TestTriage.Text.Utf8

/-!
# File trees

The part of a file system that a run can see, as a value: directories, regular files and symbolic
links, and what of them the system refuses to show.  A directory lists what it holds in the order of
the names' bytes; `Directory.Ordered` says so and every operation keeps it.  Paths are resolved part
by part from the working directory, and links are followed on the way.

Names and paths are texts.  A name that is not UTF-8 stands for nothing here, so nothing here says
what a run makes of one: that it is no ignored name, that the file pairs with itself, and that its
path cannot be written as JSON.
-/

namespace TestTriage

/-! ## Faults -/

/-- Why a path cannot be used. -/
inductive FileTree.Fault where
  | notFound
  | notDirectory
  | isDirectory
  | tooManyLinks
  /-- The system does not open what is there, for a reason of its own. -/
  | refused (reason : String) (code : Nat)
  /-- The content is not well-formed UTF-8. -/
  | notText
  deriving Repr, DecidableEq

def FileTree.Fault.message : FileTree.Fault → String
  | .notFound => "No such file or directory (os error 2)"
  | .notDirectory => "Not a directory (os error 20)"
  | .isDirectory => "Is a directory (os error 21)"
  | .tooManyLinks => "Too many levels of symbolic links (os error 40)"
  | .refused reason code => reason ++ " (os error " ++ toString code ++ ")"
  | .notText => "stream did not contain valid UTF-8"

/-- The fault of what a run may not read. -/
def FileTree.Fault.denied : FileTree.Fault := .refused "Permission denied" 13

/-! ## Entries and directories -/

mutual

/-- What a name in a directory stands for. -/
inductive Entry where
  /-- A regular file, with its content or with why it cannot be read. -/
  | file (content : Except FileTree.Fault ByteArray)
  | link (target : Path)
  | directory (inner : Directory)
  /-- A directory that can be neither listed nor entered. -/
  | unreadable (fault : FileTree.Fault)

/-- What a directory holds. -/
inductive Directory where
  | empty
  | cons (name : String) (entry : Entry) (others : Directory)

end

instance : Inhabited Entry := ⟨.directory .empty⟩

namespace Directory

/-- Induction on the entries of one directory, not on what they hold. -/
@[elab_as_elim, induction_eliminator]
theorem entryByEntry {motive : Directory → Prop} (empty : motive .empty)
    (cons : ∀ name entry others, motive others → motive (.cons name entry others)) :
    ∀ d, motive d
  | .empty => empty
  | .cons n e d => cons n e d (entryByEntry empty cons d)

/-- The names in a directory, in its order. -/
def names : Directory → List String
  | .empty => []
  | .cons n _ d => n :: d.names

/-- What a name stands for. -/
def find? (name : String) : Directory → Option Entry
  | .empty => none
  | .cons n e d => if name = n then some e else d.find? name

/-- The directory with a name that stands for an entry, whatever it stood for before. -/
def insert (name : String) (entry : Entry) : Directory → Directory
  | .empty => .cons name entry .empty
  | .cons n e d =>
    if name = n then .cons n entry d
    else if Text.utf8 name < Text.utf8 n then .cons name entry (.cons n e d)
    else .cons n e (d.insert name entry)

/-- The directory without a name. -/
def erase (name : String) : Directory → Directory
  | .empty => .empty
  | .cons n e d => if name = n then d else .cons n e (d.erase name)

/-- The directory of this name; if there is none, an empty one. -/
def inner (name : String) (d : Directory) : Directory :=
  match d.find? name with
  | some (.directory i) => i
  | _ => .empty

/-- The directory with the one below it that the names lead to changed; missing directories are
made. -/
def modify (f : Directory → Directory) : List String → Directory → Directory
  | [], d => f d
  | n :: ns, d => d.insert n (.directory (modify f ns (d.inner n)))

/-- What the names lead to, without following links. -/
def entryAt? : Directory → List String → Option Entry
  | d, [] => some (.directory d)
  | d, n :: ns =>
    match d.find? n with
    | some (.directory i) => i.entryAt? ns
    | some e => if ns.isEmpty then some e else none
    | none => none

end Directory

/-! ## Order -/

mutual

/-- Is every directory in the entry in the order of names? -/
def Entry.Ordered : Entry → Prop
  | .directory d => d.Ordered
  | _ => True

/-- Is the directory, with every one below it, in the order of names? -/
def Directory.Ordered : Directory → Prop
  | .empty => True
  | .cons n e d => e.Ordered ∧ (∀ m ∈ d.names, Text.utf8 n < Text.utf8 m) ∧ d.Ordered

end

namespace Directory

theorem mem_names_insert {m name : String} {entry : Entry} {d : Directory}
    (h : m ∈ (d.insert name entry).names) : m = name ∨ m ∈ d.names := by
  induction d with
  | empty => simpa [insert, names] using h
  | cons n e d ih =>
    rw [insert] at h
    split at h
    · next heq => simp_all [names]
    · split at h
      · simpa [names] using h
      · simp only [names, List.mem_cons] at h ⊢
        rcases h with h | h
        · exact .inr (.inl h)
        · exact (ih h).imp_right .inr

theorem mem_names_of_mem_erase {m name : String} {d : Directory}
    (h : m ∈ (d.erase name).names) : m ∈ d.names := by
  induction d with
  | empty => exact h
  | cons n e d ih =>
    rw [erase] at h
    split at h
    · exact List.mem_cons_of_mem _ h
    · simp only [names, List.mem_cons] at h ⊢
      exact h.imp_right ih

theorem Ordered.entry {name : String} {entry : Entry} {d : Directory} (hd : d.Ordered)
    (h : d.find? name = some entry) : entry.Ordered := by
  induction d with
  | empty => simp [find?] at h
  | cons n e d ih =>
    rw [find?] at h
    rw [Ordered] at hd
    split at h
    · exact Option.some.inj h ▸ hd.1
    · exact ih hd.2.2 h

theorem Ordered.insert {name : String} {entry : Entry} {d : Directory} (hd : d.Ordered)
    (he : entry.Ordered) : (d.insert name entry).Ordered := by
  induction d with
  | empty => simp [Directory.insert, Ordered, names, he]
  | cons n e d ih =>
    rw [Directory.insert]
    rw [Ordered] at hd
    obtain ⟨hhead, hfirst, hrest⟩ := hd
    split
    · next heq => exact ⟨he, heq ▸ hfirst, hrest⟩
    · next hne =>
      split
      · next hlt =>
        refine ⟨he, fun m hm => ?_, hhead, hfirst, hrest⟩
        rcases List.mem_cons.1 hm with rfl | hm
        · exact hlt
        · exact List.lt_trans hlt (hfirst m hm)
      · next hlt =>
        refine ⟨hhead, fun m hm => ?_, ih hrest⟩
        rcases mem_names_insert hm with rfl | hm
        · exact Text.utf8_lt_of_ne_of_not_lt hne hlt
        · exact hfirst m hm

theorem Ordered.erase {name : String} {d : Directory} (hd : d.Ordered) :
    (d.erase name).Ordered := by
  induction d with
  | empty => exact hd
  | cons n e d ih =>
    rw [Directory.erase]
    rw [Ordered] at hd
    split
    · exact hd.2.2
    · exact ⟨hd.1, fun m hm => hd.2.1 m (mem_names_of_mem_erase hm), ih hd.2.2⟩

theorem Ordered.inner {name : String} {d : Directory} (hd : d.Ordered) :
    (d.inner name).Ordered := by
  rw [Directory.inner]
  split
  · next h => exact hd.entry h
  · trivial

theorem Ordered.modify {f : Directory → Directory} (hf : ∀ d, d.Ordered → (f d).Ordered)
    {ns : List String} {d : Directory} (hd : d.Ordered) : (d.modify f ns).Ordered := by
  induction ns generalizing d with
  | nil => exact hf d hd
  | cons n ns ih => exact hd.insert (ih hd.inner)

end Directory

/-! ## Trees -/

/-- A tree of directories and the directory that paths start from. -/
structure FileTree where
  top : Directory
  ordered : top.Ordered
  /-- The names that lead from the top to the working directory. -/
  start : List String

namespace FileTree

/-- The tree with nothing but the working directory. -/
def ofStart (start : List String) : FileTree where
  top := Directory.empty.modify id start
  ordered := Directory.Ordered.modify (fun _ h => h) trivial
  start := start

instance : Inhabited FileTree := ⟨ofStart []⟩

/-! ## Resolving paths -/

/-- Where a path leads: the names from the top, free of links, and what is there. -/
structure Found where
  names : List String
  entry : Entry

/-- Whether a link at the very end of a path is followed or is itself what was asked for. -/
inductive LastLink where
  | follow
  | keep
  deriving DecidableEq

/-- Goes from the place that `names` lead to along the segments of a path.  `across` goes on from
there along the target of a link and the segments behind it.  No path leads to an unreadable
directory or on from there. -/
def along (t : FileTree) (last : LastLink)
    (across : List String → List (List Char) → Except Fault Found) :
    (names : List String) → List (List Char) → Except Fault Found
  | names, [] =>
    match t.top.entryAt? names with
    | some (.unreadable fault) => .error fault
    | some e => .ok ⟨names, e⟩
    | none => .error .notFound
  | names, s :: rest =>
    match t.top.entryAt? names with
    | some (.directory d) =>
      if Path.isIdle s then t.along last across names rest
      else if s = ['.', '.'] then t.along last across names.dropLast rest
      else
        let name := String.ofList s
        match d.find? name with
        | none => .error .notFound
        | some (.link target) =>
          if rest.isEmpty && last = .keep then .ok ⟨names ++ [name], .link target⟩
          else across (if target.isAbsolute then [] else names) (target.segments ++ rest)
        | some _ => t.along last across (names ++ [name]) rest
    | some (.unreadable fault) => .error fault
    | some _ => .error .notDirectory
    | none => .error .notFound

/-- Goes along a path that may lead through so many links. -/
def throughLinks (t : FileTree) (last : LastLink) :
    (links : Nat) → (names : List String) → List (List Char) → Except Fault Found
  | 0 => t.along last fun _ _ => .error .tooManyLinks
  | links + 1 => t.along last (t.throughLinks last links)

/-- How many links a path may lead through. -/
def linkLimit : Nat := 40

/-- Where a path leads.  The empty path leads nowhere. -/
def resolve (t : FileTree) (last : LastLink) (p : Path) : Except Fault Found :=
  if p.text.isEmpty then .error .notFound
  else t.throughLinks last linkLimit (if p.isAbsolute then [] else t.start) p.segments

/-! ## Reading -/

/-- Does the path lead to a regular file? -/
def isFile (t : FileTree) (p : Path) : Bool :=
  match t.resolve .follow p with
  | .ok ⟨_, .file _⟩ => true
  | _ => false

/-- The content of a file. -/
def read (t : FileTree) (p : Path) : Except Fault ByteArray := do
  match (← t.resolve .follow p).entry with
  | .file content => content
  | _ => throw .isDirectory

/-- The content of a file as text. -/
def readText (t : FileTree) (p : Path) : Except Fault String := do
  match String.fromUTF8? (← t.read p) with
  | some text => return text
  | none => throw .notText

/-! ## Changing -/

/-- The names from the top that a path to something new leads along. -/
def namesOf (t : FileTree) (p : Path) : List String :=
  p.parts.foldl (fun names part => match part with
    | .root => []
    | .here => names
    | .parent => names.dropLast
    | .name n => names ++ [n]) t.start

/-- The tree with an entry where a path leads, and the directories on the way. -/
def put (t : FileTree) (p : Path) (entry : Entry) (h : entry.Ordered) : FileTree :=
  match (t.namesOf p).getLast? with
  | none => t
  | some name =>
    { t with
      top := t.top.modify (·.insert name entry) (t.namesOf p).dropLast
      ordered := t.ordered.modify fun _ hd => hd.insert h }

/-- The tree with a file that reads so. -/
def putFile (t : FileTree) (p : Path) (content : Except Fault ByteArray) : FileTree :=
  t.put p (.file content) (by simp [Entry.Ordered])

/-- The tree with a file of this content. -/
def write (t : FileTree) (p : Path) (content : ByteArray) : FileTree := t.putFile p (.ok content)

/-- The tree with a directory that can be neither listed nor entered. -/
def makeUnreadable (t : FileTree) (p : Path) (fault : Fault) : FileTree :=
  t.put p (.unreadable fault) (by simp [Entry.Ordered])

/-- The tree with a symbolic link. -/
def link (t : FileTree) (p target : Path) : FileTree :=
  t.put p (.link target) (by simp [Entry.Ordered])

/-- The tree with a directory; one that is there stays as it is. -/
def makeDirectory (t : FileTree) (p : Path) : FileTree :=
  { t with
    top := t.top.modify id (t.namesOf p)
    ordered := t.ordered.modify fun _ hd => hd }

/-- The tree without what a path leads to. -/
def remove (t : FileTree) (p : Path) : FileTree :=
  match (t.namesOf p).getLast? with
  | none => t
  | some name =>
    { t with
      top := t.top.modify (·.erase name) (t.namesOf p).dropLast
      ordered := t.ordered.modify fun _ hd => hd.erase }

end FileTree

end TestTriage
