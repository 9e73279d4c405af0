import Mathlib.Data.List.Basic
import TestTriage.Go.SourceFile

/-!
# Walking a tree

The cursor keeps no list of what it has seen: that it meets every node
once, and stops, rests on where it stands. A node has a place, the numbers
of the children that lead down to it (`Node.at?`), and a cursor knows the
place it is at from the siblings to its right alone (`Cursor.place`). All
steps are climbs to the nearest sibling ahead, the first child being one
(`Cursor.next?_eq`). So the walk through a node and everything below it
goes on with the walk from the sibling ahead of it (`Cursor.exists_trail`),
and in between lists the places in order.

What is called is then read off the nodes in that order, or said by
recursion on the tree (`Node.calls`).
-/

namespace TestTriage.Go

namespace Node

/-- Induction on the parts of a tree. -/
@[elab_as_elim, induction_eliminator]
theorem byParts {motive : Node → Prop} (token : ∀ l, motive (.token l))
    (node : ∀ kind children, (∀ n ∈ children, motive n) → motive (.node kind children))
    (n : Node) : motive n := by
  refine @Node.rec motive (fun ns => ∀ n ∈ ns, motive n) token node ?_ ?_ n
  · exact List.forall_mem_nil _
  · exact fun n ns hn hns => List.forall_mem_cons.mpr ⟨hn, hns⟩

/-! ## Places -/

/-- What is at a place in a tree. -/
def at? : Node → List Nat → Option Node
  | n, [] => some n
  | n, i :: is => n.children[i]?.bind (at? · is)

mutual

/-- The nodes of a tree with their places, each in front of its parts. -/
def spots : Node → List (List Nat × Node)
  | .token l => [([], .token l)]
  | .node kind children => ([], .node kind children) :: spotsFrom 0 children

/-- The nodes of some children with their places, the first child having this number. -/
def spotsFrom : (number : Nat) → List Node → List (List Nat × Node)
  | _, [] => []
  | number, n :: ns =>
    (n.spots.map fun spot => (number :: spot.1, spot.2)) ++ spotsFrom (number + 1) ns

end

theorem mem_spotsFrom {ns : List Node} {number : Nat} {place : List Nat} {m : Node}
    (h : ∀ n ∈ ns, ∀ place, (place, m) ∈ n.spots ↔ n.at? place = some m) :
    (place, m) ∈ spotsFrom number ns
      ↔ ∃ i is, place = (number + i) :: is ∧ ns[i]?.bind (at? · is) = some m := by
  induction ns generalizing number with
  | nil => simp [spotsFrom]
  | cons n ns ih =>
      obtain ⟨hn, hns⟩ := List.forall_mem_cons.mp h
      rw [spotsFrom, List.mem_append, ih hns]
      constructor
      · rintro (hfirst | ⟨i, is, rfl, hm⟩)
        · obtain ⟨⟨is, m'⟩, hmem, heq⟩ := List.mem_map.mp hfirst
          obtain ⟨rfl, rfl⟩ := Prod.mk.inj heq
          exact ⟨0, is, rfl, (hn is).mp hmem⟩
        · exact ⟨i + 1, is, by rw [Nat.add_assoc, Nat.add_comm 1], hm⟩
      · rintro ⟨i, is, rfl, hm⟩
        cases i with
        | zero => exact .inl (List.mem_map.mpr ⟨(is, m), (hn is).mpr hm, rfl⟩)
        | succ i => exact .inr ⟨i, is, by rw [Nat.add_assoc, Nat.add_comm 1], hm⟩

theorem mem_spots {n m : Node} {place : List Nat} :
    (place, m) ∈ n.spots ↔ n.at? place = some m := by
  induction n generalizing place with
  | token l =>
      cases place with
      | nil => simp [spots, at?, eq_comm]
      | cons i is => simp [spots, at?, children]
  | node kind ns ih =>
      rw [spots, List.mem_cons, mem_spotsFrom fun n hn place => ih n hn]
      cases place with
      | nil => simp [at?, eq_comm]
      | cons i is =>
          simp only [at?, children, Prod.mk.injEq, List.cons_ne_nil, false_and, false_or,
            List.cons.injEq]
          constructor
          · rintro ⟨j, js, ⟨rfl, rfl⟩, hm⟩
            rwa [Nat.zero_add]
          · exact fun hm => ⟨i, is, ⟨(Nat.zero_add i).symm, rfl⟩, hm⟩

theorem lt_of_mem_spotsFrom {ns : List Node} {number : Nat} {spot : List Nat × Node}
    (h : spot ∈ spotsFrom number ns) : ∃ i is, spot.1 = i :: is ∧ number ≤ i := by
  induction ns generalizing number with
  | nil => simp [spotsFrom] at h
  | cons n ns ih =>
      rw [spotsFrom, List.mem_append] at h
      rcases h with h | h
      · obtain ⟨spot', -, rfl⟩ := List.mem_map.mp h
        exact ⟨number, spot'.1, rfl, Nat.le_refl _⟩
      · obtain ⟨i, is, hspot, hi⟩ := ih h
        exact ⟨i, is, hspot, Nat.le_of_succ_le hi⟩

theorem pairwise_spotsFrom {ns : List Node} {number : Nat}
    (h : ∀ n ∈ ns, n.spots.Pairwise fun s s' => s.1 < s'.1) :
    (spotsFrom number ns).Pairwise fun s s' => s.1 < s'.1 := by
  induction ns generalizing number with
  | nil => exact .nil
  | cons n ns ih =>
      obtain ⟨hn, hns⟩ := List.forall_mem_cons.mp h
      rw [spotsFrom, List.pairwise_append]
      refine ⟨?_, ih hns, ?_⟩
      · rw [List.pairwise_map]
        exact hn.imp fun hlt => List.cons_lt_cons_iff.mpr (.inr ⟨rfl, hlt⟩)
      · intro s hs s' hs'
        obtain ⟨spot, -, rfl⟩ := List.mem_map.mp hs
        obtain ⟨i, is, hplace, hi⟩ := lt_of_mem_spotsFrom hs'
        rw [hplace]
        exact List.cons_lt_cons_iff.mpr (.inl hi)

/-- Places are listed in order: each behind those above it and those to its left. -/
theorem pairwise_spots (n : Node) : n.spots.Pairwise fun s s' => s.1 < s'.1 := by
  induction n with
  | token l => exact List.pairwise_singleton _ _
  | node kind ns ih =>
      rw [spots, List.pairwise_cons]
      refine ⟨fun s hs => ?_, pairwise_spotsFrom ih⟩
      obtain ⟨i, is, hplace, -⟩ := lt_of_mem_spotsFrom hs
      rw [hplace]
      exact List.nil_lt_cons i is

theorem map_spotsFrom {ns : List Node} {number : Nat}
    (h : ∀ n ∈ ns, n.spots.map (·.2) = n.preorder) :
    (spotsFrom number ns).map (·.2) = preorderAll ns := by
  induction ns generalizing number with
  | nil => rfl
  | cons n ns ih =>
      obtain ⟨hn, hns⟩ := List.forall_mem_cons.mp h
      rw [spotsFrom, List.map_append, List.map_map, ih hns, preorderAll, ← hn]
      rfl

theorem map_spots (n : Node) : n.spots.map (·.2) = n.preorder := by
  induction n with
  | token l => rfl
  | node kind ns ih => rw [spots, List.map_cons, map_spotsFrom ih, preorder]

theorem length_preorderAll {ns : List Node} (h : ∀ n ∈ ns, n.preorder.length = n.size) :
    (preorderAll ns).length = sizeAll ns := by
  induction ns with
  | nil => rfl
  | cons n ns ih =>
      obtain ⟨hn, hns⟩ := List.forall_mem_cons.mp h
      rw [preorderAll, List.length_append, hn, ih hns, sizeAll]

theorem length_preorder (n : Node) : n.preorder.length = n.size := by
  induction n with
  | token l => rfl
  | node kind ns ih => rw [preorder, List.length_cons, length_preorderAll ih, size]

end Node

namespace Cursor

/-! ## The cursor's own place -/

/-- The place of a node, from the siblings to its right and the nodes above. -/
def placeOf : (right : List Node) → (above : List (Node × List Node)) → List Nat
  | _, [] => []
  | right, (parent, right') :: above =>
    -- what is not to the right of the node, nor the node, is to its left
    placeOf right' above ++ [parent.children.length - (right.length + 1)]

/-- Where the cursor stands. -/
def place (c : Cursor) : List Nat := placeOf c.right c.above

/-- Where the cursor stands, and what is there. -/
def spot (c : Cursor) : List Nat × Node := (c.place, c.node)

/-! ## Steps -/

/-- The walk from a place, if there is one, to its end. -/
inductive Trail : Option Cursor → List Cursor → Prop where
  | ended : Trail none []
  | step {c : Cursor} {walk : List Cursor} (h : Trail c.next? walk) : Trail (some c) (c :: walk)

theorem climb?_congr (n m : Node) (right : List Node) (above : List (Node × List Node)) :
    climb? ((n, right) :: above) = climb? ((m, right) :: above) := by
  cases right <;> rfl

/-- Every step is a climb, the children being ahead of all else. -/
theorem next?_eq (n : Node) (right : List Node) (above : List (Node × List Node)) :
    next? ⟨n, right, above⟩ = climb? ((n, n.children) :: (n, right) :: above) := by
  rw [next?, firstChild?]
  cases n.children with
  | cons x xs => rfl
  | nil => cases right <;> rfl

theorem exists_trail_children {parent : Node} {right : List Node}
    {above : List (Node × List Node)} {rest : List Cursor} {front ns : List Node}
    (hparent : parent.children = front ++ ns)
    (hrest : Trail (climb? ((parent, right) :: above)) rest)
    (h : ∀ n ∈ ns, ∀ right above rest, Trail (climb? ((n, right) :: above)) rest →
      ∃ walk, Trail (some ⟨n, right, above⟩) (walk ++ rest)
        ∧ walk.map spot = n.spots.map fun s => (placeOf right above ++ s.1, s.2)) :
    ∃ walk, Trail (climb? ((parent, ns) :: (parent, right) :: above)) (walk ++ rest)
      ∧ walk.map spot
        = (Node.spotsFrom front.length ns).map fun s => (placeOf right above ++ s.1, s.2) := by
  induction ns generalizing front with
  | nil => exact ⟨[], hrest, rfl⟩
  | cons n ns ih =>
      obtain ⟨hn, hns⟩ := List.forall_mem_cons.mp h
      -- the walk through the first child goes on with that through the others
      have hparent' : parent.children = (front ++ [n]) ++ ns := by
        rw [hparent, List.append_cons]
      obtain ⟨later, hlater, hspots⟩ := ih hparent' hns
      rw [climb?_congr parent n] at hlater
      obtain ⟨walk, hwalk, hspots'⟩ := hn ns ((parent, right) :: above) (later ++ rest) hlater
      have hplace : placeOf ns ((parent, right) :: above)
          = placeOf right above ++ [front.length] := by
        rw [placeOf, hparent, List.length_append, List.length_cons, Nat.add_sub_cancel]
      refine ⟨walk ++ later, by rwa [List.append_assoc], ?_⟩
      rw [List.map_append, hspots, hspots', hplace, Node.spotsFrom, List.map_append,
        List.map_map, List.length_append]
      simp [Function.comp_def]

/-- The walk goes through a node and all below it, and on from the sibling ahead. -/
theorem exists_trail (n : Node) (right : List Node) (above : List (Node × List Node))
    (rest : List Cursor) (hrest : Trail (climb? ((n, right) :: above)) rest) :
    ∃ walk, Trail (some ⟨n, right, above⟩) (walk ++ rest)
      ∧ walk.map spot = n.spots.map fun s => (placeOf right above ++ s.1, s.2) := by
  induction n generalizing right above rest with
  | token l =>
      refine ⟨[⟨.token l, right, above⟩], .step ?_, by simp [Node.spots, spot, place]⟩
      rw [next?_eq]
      exact hrest
  | node kind ns ih =>
      obtain ⟨walk, hwalk, hspots⟩ := exists_trail_children
        (show (Node.node kind ns).children = [] ++ ns from rfl) hrest ih
      refine ⟨⟨.node kind ns, right, above⟩ :: walk, .step ?_, ?_⟩
      · rw [next?_eq]
        exact hwalk
      · rw [List.map_cons, hspots, Node.spots, List.map_cons]
        simp [spot, place]

theorem exists_trail_root (n : Node) :
    ∃ walk, Trail (some (root n)) walk ∧ walk.map spot = n.spots
      ∧ walk.map (·.node) = n.preorder := by
  obtain ⟨walk, hwalk, hspots⟩ := exists_trail n [] [] [] .ended
  rw [List.append_nil] at hwalk
  have hspots : walk.map spot = n.spots := by simpa [placeOf] using hspots
  refine ⟨walk, hwalk, hspots, ?_⟩
  rw [← n.map_spots, ← hspots, List.map_map]
  rfl

theorem visits_of_trail {c : Cursor} {walk : List Cursor} (h : Trail (some c) walk)
    {steps : Nat} (hsteps : walk.length ≤ steps) : visits steps c = walk.map (·.node) := by
  induction steps generalizing c walk with
  | zero => cases h; simp at hsteps
  | succ steps ih =>
      cases h with
      | @step _ walk hnext =>
          rw [visits, List.map_cons]
          cases hc : c.next? with
          | none =>
              rw [hc] at hnext
              cases hnext
              rfl
          | some c' =>
              rw [hc] at hnext
              exact congrArg _ (ih hnext (Nat.le_of_succ_le_succ hsteps))

end Cursor

/-! ## Calls -/

namespace Node

mutual

/-- The names that a tree calls: at a call the callee, if that is a bare identifier, and at any node
what its parts call. -/
def calls : Node → List String
  | .token _ => []
  | .node .call (callee :: arguments) =>
    (callee.identifier?.map Lexeme.text).toList ++ callsOf (callee :: arguments)
  | .node _ children => callsOf children

/-- The names that some trees call. -/
def callsOf : List Node → List String
  | [] => []
  | n :: ns => n.calls ++ callsOf ns

end

theorem calls_node (kind : Kind) (ns : List Node) :
    (node kind ns).calls = ((node kind ns).target?).toList ++ callsOf ns := by
  by_cases h : ∃ callee arguments, kind = .call ∧ ns = callee :: arguments
  · obtain ⟨callee, arguments, rfl, rfl⟩ := h
    rw [calls, target?]
  · rw [calls, target?]
    · rfl
    · rintro callee arguments heq
      obtain ⟨rfl, rfl⟩ := Node.node.inj heq
      exact h ⟨callee, arguments, rfl, rfl⟩
    · rintro callee arguments rfl rfl
      exact h ⟨callee, arguments, rfl, rfl⟩

theorem callsOf_eq_flatMap (ns : List Node) : callsOf ns = ns.flatMap calls := by
  induction ns with
  | nil => rfl
  | cons n ns ih => rw [callsOf, ih, List.flatMap_cons]

theorem filterMap_preorderAll {ns : List Node}
    (h : ∀ n ∈ ns, n.preorder.filterMap target? = n.calls) :
    (preorderAll ns).filterMap target? = callsOf ns := by
  induction ns with
  | nil => rfl
  | cons n ns ih =>
      obtain ⟨hn, hns⟩ := List.forall_mem_cons.mp h
      rw [preorderAll, List.filterMap_append, hn, ih hns, callsOf]

theorem filterMap_preorder (n : Node) : n.preorder.filterMap target? = n.calls := by
  induction n with
  | token l => rfl
  | node kind ns ih =>
      rw [preorder, List.filterMap_cons, filterMap_preorderAll ih, calls_node]
      cases (node kind ns).target? <;> rfl

theorem callTargets_eq_calls (n : Node) : n.callTargets = n.calls := by
  obtain ⟨walk, hwalk, -, hnodes⟩ := Cursor.exists_trail_root n
  have hlength : walk.length = n.size := by
    rw [← n.length_preorder, ← hnodes, List.length_map]
  rw [callTargets, Cursor.visits_of_trail hwalk (Nat.le_of_eq hlength), hnodes, filterMap_preorder]

end Node

/-- **The names that a declaration calls are found in one walk over its tree.** The
walk from the root comes to an end. It is at every place of the tree and at no other,
at each of them once and in their order, each node in front of its parts and these from
left to right. The names are those of the calls it meets whose callee is a bare
identifier. So they are what recursion on the tree gives: of any other call, what the
callee calls and then what the arguments call. -/
theorem Declaration.callTargets_walk (d : Declaration) :
    (∃ walk, Cursor.Trail (some (.root d.tree)) walk
        ∧ (∀ place n, d.tree.at? place = some n ↔ ∃ c ∈ walk, c.place = place ∧ c.node = n)
        ∧ (walk.map Cursor.place).Pairwise (· < ·)
        ∧ walk.map Cursor.node = d.tree.preorder
        ∧ d.callTargets = (walk.map Cursor.node).filterMap Node.target?)
      ∧ d.callTargets = d.tree.calls
      ∧ ∀ kind parts arguments,
          (Node.node .call (.node kind parts :: arguments)).callTargets
            = (Node.node kind parts).callTargets ++ arguments.flatMap Node.callTargets := by
  have hcalls : d.callTargets = d.tree.calls := d.tree.callTargets_eq_calls
  refine ⟨?_, hcalls, fun kind parts arguments => ?_⟩
  · obtain ⟨walk, hwalk, hspots, hnodes⟩ := Cursor.exists_trail_root d.tree
    refine ⟨walk, hwalk, fun place n => ?_, ?_, hnodes, ?_⟩
    · rw [← Node.mem_spots, ← hspots, List.mem_map]
      exact exists_congr fun c => and_congr_right fun _ => Iff.of_eq (Prod.mk.injEq ..)
    · have hordered := d.tree.pairwise_spots
      rw [← hspots, List.pairwise_map] at hordered
      exact List.pairwise_map.mpr hordered
    · rw [hnodes, Node.filterMap_preorder, hcalls]
  · have hall : Node.callTargets = Node.calls := funext Node.callTargets_eq_calls
    rw [hall, Node.calls, Node.callsOf, Node.callsOf_eq_flatMap]
    rfl

end TestTriage.Go
