import TestTriage.Go.Node

/-!
# Call targets

A call target is a bare identifier in the place of the callee.  The tree of a declaration is walked
with a cursor that steps to the first child, else to the next sibling, else climbs until there is
one; `Node.preorder` is the same order said by recursion.
-/

namespace TestTriage.Go

namespace Node

mutual

/-- A tree and all trees within it, each in front of its parts. -/
def preorder : Node → List Node
  | .token l => [.token l]
  | .node kind children => .node kind children :: preorderAll children

/-- The trees of a list one after the other, each with the trees within it. -/
def preorderAll : List Node → List Node
  | [] => []
  | n :: ns => n.preorder ++ preorderAll ns

end

mutual

/-- Number of trees within a tree, itself included. -/
def size : Node → Nat
  | .token _ => 1
  | .node _ children => sizeAll children + 1

/-- Number of trees within the trees of a list. -/
def sizeAll : List Node → Nat
  | [] => 0
  | n :: ns => n.size + sizeAll ns

end

/-- The name called by this node, if it is a call and its callee a bare identifier. -/
def target? : Node → Option String
  | .node .call (callee :: _) => callee.identifier?.map Lexeme.text
  | _ => none

end Node

/-! ## Walking a tree -/

/-- A place in a tree: a node, its siblings to the right, and the same for the nodes above. -/
structure Cursor where
  node : Node
  right : List Node
  above : List (Node × List Node)

namespace Cursor

/-- A tree as a whole. -/
def root (n : Node) : Cursor := ⟨n, [], []⟩

def firstChild? (c : Cursor) : Option Cursor :=
  match c.node.children with
  | [] => none
  | x :: xs => some ⟨x, xs, (c.node, c.right) :: c.above⟩

/-- The next sibling of the nearest node above that has one. -/
def climb? : (above : List (Node × List Node)) → Option Cursor
  | [] => none
  | (_, x :: xs) :: above => some ⟨x, xs, above⟩
  | (_, []) :: above => climb? above

/-- The next sibling, or that of the nearest node above that has one. -/
def across? (c : Cursor) : Option Cursor :=
  match c.right with
  | x :: xs => some ⟨x, xs, c.above⟩
  | [] => climb? c.above

/-- The next place in the walk. -/
def next? (c : Cursor) : Option Cursor :=
  match c.firstChild? with
  | some child => some child
  | none => c.across?

/-- The nodes met from a place on, in at most `steps` steps. -/
def visits : (steps : Nat) → Cursor → List Node
  | 0, _ => []
  | steps + 1, c =>
    c.node :: match c.next? with
      | some c => visits steps c
      | none => []

end Cursor

/-- The names a tree calls, in the order of its text, repetitions kept. -/
def Node.callTargets (n : Node) : List String :=
  (Cursor.visits n.size (.root n)).filterMap Node.target?

end TestTriage.Go
