import TestTriage.Go.Pieces
import TestTriage.Text.WhiteSpace

/-!
# Declarations and their doc comments

The declarations of a file are its functions and methods at the top level.  A declaration's text
begins with its doc comment: the block of comments right above it, whose last row is the row above
the declaration.  A block goes on while each comment starts at most one row below the end of the one
before, and a comment on the row where code ended does not begin one.
-/

namespace TestTriage.Go

/-- Functions have no receiver, methods have one. -/
inductive Declaration.Kind where
  | function
  | method
  deriving Repr, DecidableEq

/-- A function or method at the top level of a file. -/
structure Declaration where
  name : String
  kind : Declaration.Kind
  /-- The doc comment and the white space behind it. -/
  lead : List Lexeme
  /-- The declaration itself. -/
  lexemes : List Lexeme
  tree : Node
  /-- Bytes of the file in front of `lead`. -/
  offset : Nat
  /-- Rows of the file above the first row of `lexemes`. -/
  row : Nat
  deriving Repr

namespace Declaration

/-- The text of the declaration with its doc comment, as it stands in the file. -/
def text (d : Declaration) : String := Lexeme.spell (d.lead ++ d.lexemes)

/-- First byte of the declaration itself. -/
def start (d : Declaration) : Nat := d.offset + Lexeme.bytesOf d.lead

/-- The byte behind the last one. -/
def stop (d : Declaration) : Nat := d.start + Lexeme.bytesOf d.lexemes

/-- The doc comment without white space behind it. -/
def doc? (d : Declaration) : Option String :=
  if d.lead.isEmpty then none
  else some (String.ofList (Text.trimEnd (Lexeme.spell d.lead).toList))

/-- Line of the first token, counted from one. -/
def line (d : Declaration) : Nat := d.row + 1

/-- Line of the last token, counted from one. -/
def endLine (d : Declaration) : Nat := d.row + Lexeme.rowsOf d.lexemes + 1

/-- Has the declaration a body, or only a signature? -/
def hasBody (d : Declaration) : Bool := d.tree.children.any (·.isKind .block)

end Declaration

/-- The kind and name of a function or method. -/
def Node.declared? : Node → Option (Declaration.Kind × String)
  | .node .function (.token name :: _) => some (.function, name.text)
  | .node .method (.token name :: _) => some (.method, name.text)
  | _ => none

/-! ## Doc comments -/

/-- A block of comments that may turn out to be a doc comment. -/
structure CommentBlock where
  /-- Its lexemes and those behind it so far. -/
  lexemes : List Lexeme
  /-- Bytes of the file in front of it. -/
  offset : Nat
  /-- The row its last comment ends on. -/
  lastRow : Nat
  deriving Repr

/-- What is known in front of a piece of the top level. -/
structure DocScan where
  /-- The row the piece starts on. -/
  row : Nat
  /-- The byte the piece starts at. -/
  offset : Nat
  block : Option CommentBlock
  /-- The row the last code in front of the piece ends on. -/
  codeRow : Option Nat
  deriving Repr

namespace DocScan

def start : DocScan := ⟨0, 0, none, none⟩

/-- Row and byte behind some lexemes. -/
def advance (s : DocScan) (ls : List Lexeme) : DocScan :=
  { s with row := s.row + Lexeme.rowsOf ls, offset := s.offset + Lexeme.bytesOf ls }

/-- The comment block behind a comment: carried on, dropped, or begun with it. -/
def blockBehind (s : DocScan) (l : Lexeme) : Option CommentBlock :=
  let lastRow := s.row + l.rows
  let fresh := if s.codeRow = some s.row then none else some ⟨[l], s.offset, lastRow⟩
  match s.block with
  | some b => if s.row ≤ b.lastRow + 1 then some ⟨b.lexemes ++ [l], b.offset, lastRow⟩ else fresh
  | none => fresh

/-- What is known behind a piece. -/
def step (s : DocScan) (p : Piece) : DocScan :=
  let next := s.advance p.lexemes
  match p with
  | .space l => { next with block := s.block.map fun b => { b with lexemes := b.lexemes ++ [l] } }
  | .comment l => { next with block := s.blockBehind l }
  | .semicolon _ | .item _ _ => { next with block := none, codeRow := some next.row }

/-- The block whose last comment ends on the row above the next piece. -/
def docBlock? (s : DocScan) : Option CommentBlock :=
  s.block.filter fun b => b.lastRow + 1 == s.row

/-- The declaration a piece is, if it is one. -/
def declaration? (s : DocScan) : Piece → Option Declaration
  | .item tree lexemes =>
    tree.declared?.map fun (kind, name) =>
      let (lead, offset) := match s.docBlock? with
        | some b => (b.lexemes, b.offset)
        | none => ([], s.offset)
      { name, kind, lead, lexemes, tree, offset, row := s.row }
  | _ => none

/-- The declarations among some pieces, in order. -/
def declarations (s : DocScan) : List Piece → List Declaration
  | [] => []
  | p :: ps => (s.declaration? p).toList ++ declarations (s.step p) ps

end DocScan

/-- The declarations of a file, given as its pieces. -/
def declarations (ps : List Piece) : List Declaration := DocScan.start.declarations ps

end TestTriage.Go
