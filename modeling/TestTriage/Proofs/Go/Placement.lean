import Mathlib.Data.List.Chain
import TestTriage.Proofs.Go.Spelling

/-!
# Pieces at their places

A piece holds no position: the row it starts on is counted over the
pieces in front of it, and so is what it is there for, since a `;` ends
what stands open or else is a statement of its own. `placed` writes both
beside every piece of a file, so that a part of a file can be talked
about without the pieces in front of it.

Places only go down (`descending_placed`), and the last row of a kind of
piece, such as code, is found from behind (`lastRowOf_append`).
-/

namespace TestTriage.Go

namespace Pending

/-- What stands open behind a piece. -/
def after : Pending → Piece → Pending
  | pending, .space l => if l.kind = .newline then .nothing else pending
  | pending, .comment _ => pending
  | pending, .semicolon _ => if pending = .nothing then .terminator else .nothing
  | _, .item tree _ => behind tree

end Pending

/-- A piece at its place. -/
structure Placed where
  piece : Piece
  /-- The row it starts on. -/
  row : Nat
  /-- What stands open in front of it. -/
  pending : Pending

namespace Placed

/-- The row it ends on. -/
def lastRow (p : Placed) : Nat := p.row + Lexeme.rowsOf p.piece.lexemes

def isComment (p : Placed) : Bool :=
  match p.piece with
  | .comment _ => true
  | _ => false

/-- Is it an item or a `;`? -/
def isCode (p : Placed) : Bool :=
  match p.piece with
  | .item _ _ | .semicolon _ => true
  | _ => false

/-- Is it a `;` that ends what stands open? -/
def isTerminator (p : Placed) : Bool :=
  match p.piece with
  | .semicolon _ => p.pending ≠ .nothing
  | _ => false

/-- Is it an item, or a `;` that is a statement of its own? -/
def isStatement (p : Placed) : Bool := p.isCode && !p.isTerminator

/-- The lexemes of some pieces. -/
def lexemesOf (ps : List Placed) : List Lexeme := ps.flatMap (·.piece.lexemes)

/-- The text that some pieces spell. -/
def textOf (ps : List Placed) : String := Lexeme.spell (lexemesOf ps)

/-- No piece starts above the row on which an earlier one ends. -/
abbrev Descending (ps : List Placed) : Prop := ps.Pairwise fun p q => p.lastRow ≤ q.row

/-- The row that the last piece of a kind ends on. -/
def lastRowOf (kind : Placed → Bool) (ps : List Placed) : Option Nat :=
  (ps.filter kind).getLast?.map lastRow

end Placed

/-- Pieces at their places, behind some rows and with something standing open. -/
def placedBehind : (row : Nat) → Pending → List Piece → List Placed
  | _, _, [] => []
  | row, pending, p :: ps =>
    ⟨p, row, pending⟩ :: placedBehind (row + Lexeme.rowsOf p.lexemes) (pending.after p) ps

/-- The pieces of a file at their places. -/
def placed (ps : List Piece) : List Placed := placedBehind 0 .nothing ps

namespace Placed

/-! ## Lexemes of pieces -/

@[simp] theorem lexemesOf_nil : lexemesOf [] = [] := rfl

@[simp] theorem lexemesOf_cons (p : Placed) (ps : List Placed) :
    lexemesOf (p :: ps) = p.piece.lexemes ++ lexemesOf ps := rfl

@[simp] theorem lexemesOf_append (ps qs : List Placed) :
    lexemesOf (ps ++ qs) = lexemesOf ps ++ lexemesOf qs := List.flatMap_append

theorem lexemesOf_placedBehind (row : Nat) (pending : Pending) (ps : List Piece) :
    lexemesOf (placedBehind row pending ps) = ps.flatMap Piece.lexemes := by
  induction ps generalizing row pending with
  | nil => rfl
  | cons p ps ih => rw [placedBehind, lexemesOf_cons, ih, List.flatMap_cons]

theorem lexemesOf_placed (ps : List Piece) : lexemesOf (placed ps) = ps.flatMap Piece.lexemes :=
  lexemesOf_placedBehind 0 .nothing ps

/-! ## Rows -/

theorem row_le_lastRow (p : Placed) : p.row ≤ p.lastRow := Nat.le_add_right _ _

theorem le_row_of_mem_placedBehind {row : Nat} {pending : Pending} {ps : List Piece}
    {p : Placed} (h : p ∈ placedBehind row pending ps) : row ≤ p.row := by
  induction ps generalizing row pending with
  | nil => exact absurd h List.not_mem_nil
  | cons q ps ih =>
      rcases List.mem_cons.mp h with rfl | h
      · exact Nat.le_refl _
      · exact Nat.le_trans (Nat.le_add_right _ _) (ih h)

theorem descending_placedBehind (row : Nat) (pending : Pending) (ps : List Piece) :
    Descending (placedBehind row pending ps) := by
  induction ps generalizing row pending with
  | nil => exact .nil
  | cons p ps ih =>
      exact List.pairwise_cons.mpr ⟨fun q hq => le_row_of_mem_placedBehind hq, ih _ _⟩

theorem descending_placed (ps : List Piece) : Descending (placed ps) :=
  descending_placedBehind 0 .nothing ps

/-! ## The last row of a kind -/

variable {kind : Placed → Bool}

theorem lastRowOf_append (ps qs : List Placed) :
    lastRowOf kind (ps ++ qs) = (lastRowOf kind qs).or (lastRowOf kind ps) := by
  rw [lastRowOf, List.filter_append, List.getLast?_append, Option.map_or]
  rfl

theorem lastRowOf_singleton (p : Placed) :
    lastRowOf kind [p] = if kind p then some p.lastRow else none := by
  by_cases h : kind p <;> simp [lastRowOf, h]

theorem lastRowOf_concat (ps : List Placed) (p : Placed) :
    lastRowOf kind (ps ++ [p]) = if kind p then some p.lastRow else lastRowOf kind ps := by
  rw [lastRowOf_append, lastRowOf_singleton]
  split <;> rfl

theorem lastRowOf_eq_none (ps : List Placed) (h : ∀ p ∈ ps, kind p = false) :
    lastRowOf kind ps = none := by
  rw [lastRowOf, List.filter_eq_nil_iff.mpr fun p hp => by simp [h p hp]]
  rfl

theorem exists_of_lastRowOf {ps : List Placed} {row : Nat} (h : lastRowOf kind ps = some row) :
    ∃ p ∈ ps, kind p = true ∧ p.lastRow = row := by
  obtain ⟨p, hp, rfl⟩ := Option.map_eq_some_iff.mp h
  obtain ⟨hmem, hkind⟩ := List.mem_filter.mp (List.mem_of_getLast? hp)
  exact ⟨p, hmem, hkind, rfl⟩

end Placed

end TestTriage.Go
