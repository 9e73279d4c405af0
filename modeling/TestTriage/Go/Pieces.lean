import TestTriage.Go.Scan
import TestTriage.Go.Grammar

/-!
# The top level of a source file

A file is cut into pieces: items, comments, semicolons, and the white space between them.  The
pieces spell the file.  An item is cut off where its rule stops reading, so neither the line end
behind it nor a comment on its last line belongs to it.

A line end or semicolon has to stand between two items.  At the end of the file an item of its own
(a function, a method, a package clause or an import) may go without, a statement may not.
-/

namespace TestTriage.Go

/-- A piece of the top level. -/
inductive Piece where
  /-- A blank or a line end. -/
  | space (lexeme : Lexeme)
  | comment (lexeme : Lexeme)
  | semicolon (lexeme : Lexeme)
  | item (tree : Node) (lexemes : List Lexeme)
  deriving Repr, Inhabited

/-- The lexemes of a piece. -/
def Piece.lexemes : Piece → List Lexeme
  | .space l | .comment l | .semicolon l => [l]
  | .item _ ls => ls

/-- What the piece in front of the next one asks for. -/
inductive Pending where
  /-- An item may begin. -/
  | nothing
  /-- A line end or semicolon, unless the file ends. -/
  | separator
  /-- A line end or semicolon. -/
  | terminator
  deriving Repr, DecidableEq

namespace Pending

/-- What stands open behind an item. -/
def behind (tree : Node) : Pending :=
  match tree.kind? with
  | some .function | some .method | some .packageClause | some .importDeclaration => .separator
  | _ => .terminator

end Pending

/-- The lexemes an item has read: those in front of the rest. -/
def consumed (ls rest : List Lexeme) : List Lexeme := ls.take (ls.length - rest.length)

/-- The pieces of a list of at most `limit` lexemes. -/
def piecesUpTo : (limit : Nat) → Pending → List Lexeme → Except Refusal (List Piece)
  | 0, pending, _ | _ + 1, pending, [] =>
    if pending = .terminator then .error ⟨[], none⟩ else .ok []
  | limit + 1, pending, l :: ls =>
    match l.kind with
    | .blank => return .space l :: (← piecesUpTo limit pending ls)
    | .newline => return .space l :: (← piecesUpTo limit .nothing ls)
    | .comment => return .comment l :: (← piecesUpTo limit pending ls)
    | _ =>
      if l.is ";" then
        -- behind an item it ends the item, elsewhere it is a statement of its own
        let after := if pending = .nothing then Pending.terminator else .nothing
        return .semicolon l :: (← piecesUpTo limit after ls)
      else if pending ≠ .nothing then .error ⟨l :: ls, none⟩
      else
        match (Grammar.itemFrom l).run ls with
        | .error refusal => .error refusal
        | .ok (tree, rest) =>
          return .item tree (l :: consumed ls rest) :: (← piecesUpTo limit (.behind tree) rest)

/-- The pieces of a source file. -/
def pieces (ls : List Lexeme) : Except Refusal (List Piece) := piecesUpTo ls.length .nothing ls

end TestTriage.Go
