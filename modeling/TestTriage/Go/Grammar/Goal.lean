import TestTriage.Go.Rule
import TestTriage.Go.Node

/-!
# Goals of the grammar

The rules of the grammar call each other through goals: a rule is given a function `sub` that reads
any goal, and `Grammar` closes the circle.  Most goals are entered with their first token in hand,
for the choice between rules is made by that token.
-/

namespace TestTriage.Go

/-- Where a term stands. -/
structure Place where
  /-- May a line end close the term?  If not, line ends are white space. -/
  lines : Bool
  /-- May a brace after a type name open a composite literal?  In the header of a control statement
  it opens the block instead. -/
  literals : Bool
  deriving Repr, DecidableEq

/-- A statement of its own line. -/
def Place.statement : Place := ⟨true, true⟩

/-- Within brackets. -/
def Place.inside : Place := ⟨false, true⟩

/-- The header of a control statement. -/
def Place.header : Place := ⟨false, false⟩

/-- What may stand in front of a token that carries the term on. -/
def Place.gap (place : Place) : Gap := if place.lines then .sameLine else .anyLine

/-- What the rules read for each other. -/
inductive Goal where
  /-- A type; the gap is the one in front of tokens that carry it on. -/
  | type (gap : Gap) (first : Lexeme)
  /-- Parameters behind their opening parenthesis, up to the closing one. -/
  | parameters
  /-- An operand, a binary expression or a type. -/
  | term (place : Place) (first : Lexeme)
  /-- What may follow an operand already read, to the end of the term. -/
  | resume (place : Place) (operand : Node)
  /-- A term without binary operators. -/
  | unary (place : Place) (first : Lexeme)
  /-- The values of a composite literal behind the opening brace. -/
  | values
  /-- A block behind the opening brace. -/
  | block
  | statement (first : Lexeme)

/-- How a rule reads the goals it is made of. -/
abbrev Reading := Goal → Rule Node

namespace Reading

variable (sub : Reading)

/-- A type that has to follow. -/
def type (gap : Gap) : Rule Node := do
  sub (.type gap (← .token (·.startsType)))

/-- An operand or a type that has to follow. -/
def term (place : Place) : Rule Node := do
  sub (.term place (← .token (·.startsTerm)))

/-- An operand whose first token has been read. -/
def operandFrom (place : Place) (first : Lexeme) : Rule Node := do
  let x ← sub (.term place first)
  .check x.isOperand
  return x

/-- An operand that has to follow. -/
def operand (place : Place) : Rule Node := do
  sub.operandFrom place (← .token (·.startsTerm))

end Reading

end TestTriage.Go
