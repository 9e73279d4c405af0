import TestTriage.Problem

/-!
# Looking up source files

A run reports a file by its name or by the end of its path.  The file is looked for below a root:
the tree is walked in the order of names, a directory's content at its place among its siblings, and
the first regular file whose path ends with the reported parts is the one.  Links are not followed,
except for the root itself, and directories with ignored names are left out, except for the root.
What cannot be read below the root is passed over.
-/

namespace TestTriage

/-! ## Walking -/

/-- What a walk comes to, by the names that lead to it: a regular file, or a directory that it
cannot read. -/
inductive Sight where
  | file (names : List String)
  | unreadable (names : List String) (fault : FileTree.Fault)
  deriving Repr, DecidableEq

/-- The same sight from the directory around, in which the name stands for where it was seen. -/
def Sight.under (name : String) : Sight → Sight
  | .file names => .file (name :: names)
  | .unreadable names fault => .unreadable (name :: names) fault

/-- What a walk of a directory comes to, in this order. -/
def Directory.walk (ignored : List String) : Directory → List Sight
  | .empty => []
  | .cons n (.file _) d => .file [n] :: d.walk ignored
  | .cons _ (.link _) d => d.walk ignored
  | .cons n (.directory inner) d =>
    (if ignored.contains n then [] else (inner.walk ignored).map (.under n)) ++ d.walk ignored
  | .cons n (.unreadable fault) d =>
    (if ignored.contains n then [] else [.unreadable [n] fault]) ++ d.walk ignored

/-! ## Finding -/

/-- Directories that hold no source files of the project's own. -/
def defaultIgnored : List String := [".git", "node_modules", ".idea", ".vscode"]

/-- Where files are looked for. -/
structure Locator where
  root : Path
  /-- Names of directories that are left out. -/
  ignored : List String := defaultIgnored
  deriving Repr, DecidableEq

namespace Locator

/-- The path of what the names below the root lead to. -/
def below (l : Locator) (names : List String) : Path :=
  names.foldl (fun p n => p.join ⟨n⟩) l.root

/-- What a walk from the root comes to.  A root that cannot be read cannot be walked. -/
def sights (l : Locator) (t : FileTree) : Except FileTree.Fault (List Sight) := do
  match (← t.resolve .keep l.root).entry with
  | .file _ => return [.file []]
  | _ =>
    match (← t.resolve .follow l.root).entry with
    | .directory d => return d.walk l.ignored
    | _ => return []

/-- The path of the first file in sight that ends with the parts of the reported one. -/
def firstFit (l : Locator) (reported : Path) : List Sight → Option Path
  | [] => none
  | .unreadable _ _ :: others => l.firstFit reported others
  | .file names :: others =>
    if (l.below names).endsWith reported then some (l.below names) else l.firstFit reported others

/-- The first file whose path ends with the parts of the reported one. -/
def locate (l : Locator) (t : FileTree) (reported : Path) : Except Problem Path :=
  match l.sights t with
  | .error fault => .error (.unwalkableRoot l.root fault)
  | .ok sights =>
    match l.firstFit reported sights with
    | some p => .ok p
    | none => .error (.sourceNotFound reported.text l.root)

end Locator

end TestTriage
