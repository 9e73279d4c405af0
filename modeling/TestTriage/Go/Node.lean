import TestTriage.Go.Lexeme

/-!
# Syntax trees

A tree keeps the tokens that carry meaning (names and literals) and drops keywords, operators and
punctuation.  It holds no positions, so a declaration has the same tree wherever it stands.  Several
readings share one shape in Go (`f[T](x)` may call or convert, `(T)` may be a type), and the
functions at the end tell them apart on the finished tree.
-/

namespace TestTriage.Go

/-- What an inner node of a tree stands for. -/
inductive Node.Kind where
  -- operands
  | predeclared | selector | index | slice | call | conversion | spread | assertion
  /-- An operand followed by `.(type)`. -/
  | typeGuard
  | paren | unary | dereference | binary | composite | values | pair | functionLiteral
  -- types
  | arrayType
  /-- An array type whose length is counted from its elements. -/
  | countedArrayType
  | sliceType | mapType | channelType | functionType | structType | interfaceType
  | parenType | pointerType
  -- parts of types
  | parameters | parameter | typeParameter | field | element
  -- statements
  | empty | block | expression | list | assign | update | define | increment | send
  | rangeClause | labelled | emptyLabel | returnStatement | goStatement | deferStatement
  | ifStatement | forStatement | switchStatement | selectStatement | clause
  | branch
  -- declarations
  | varGroup | constGroup | typeGroup | specification
  | function | method | importDeclaration | packageClause
  deriving Repr, DecidableEq, Inhabited

/-- A syntax tree. -/
inductive Node where
  | token (lexeme : Lexeme)
  | node (kind : Node.Kind) (children : List Node)
  deriving Repr, Inhabited

namespace Node

/-- The kind of an inner node. -/
def kind? : Node → Option Kind
  | .token _ => none
  | .node kind _ => some kind

def isKind (n : Node) (kind : Kind) : Bool := n.kind? == some kind

def children : Node → List Node
  | .token _ => []
  | .node _ children => children

/-- The lexeme of a bare identifier. -/
def identifier? : Node → Option Lexeme
  | .token l => if l.isIdentifier then some l else none
  | .node _ _ => none

def isIdentifier (n : Node) : Bool := n.identifier?.isSome

/-- Kinds that are types and nothing else. -/
def Kind.isType : Kind → Bool
  | .arrayType | .sliceType | .mapType | .channelType | .functionType | .structType
  | .interfaceType | .parenType | .pointerType => true
  | _ => false

/-- Can the tree be read as a type only? -/
def isBareType (n : Node) : Bool := n.kind?.any Kind.isType

/-- Is the tree a value, so that it may stand as an operand? -/
def isOperand (n : Node) : Bool :=
  !n.isBareType && !n.isKind .countedArrayType && !n.isKind .typeGuard

/-- A name, or a name in a package. -/
def isQualifiedName : Node → Bool
  | .token l => l.isIdentifier
  | .node .selector [package, name] => package.isIdentifier && name.isIdentifier
  | .node _ _ => false

mutual

/-- Can the tree be read as a type? -/
def isType : Node → Bool
  | .token l => l.isIdentifier
  | .node .selector [package, name] => package.isIdentifier && name.isIdentifier
  | .node .dereference [target] => target.isType
  | .node .paren [inner] => inner.isType
  | .node .index (name :: arguments) => name.isQualifiedName && allTypes arguments
  | .node kind _ => kind.isType

/-- Can all the trees be read as types? -/
def allTypes : List Node → Bool
  | [] => true
  | n :: ns => n.isType && allTypes ns

end

/-- The name of a type, possibly in a package, possibly with type arguments. -/
def isTypeName : Node → Bool
  | .node .index (name :: arguments) => name.isQualifiedName && allTypes arguments
  | n => n.isQualifiedName

/-- Types that a brace after them turns into a composite literal in any place. -/
def isLiteralType (n : Node) : Bool :=
  match n.kind? with
  | some .arrayType | some .countedArrayType | some .sliceType | some .mapType
  | some .structType => true
  | _ => false

/-- The callee and the number of type arguments of `f[X, …]`, when `f` is a bare identifier and
every argument can be read as a type. -/
def instantiation? : Node → Option (List Node)
  | .node .index (name :: arguments) =>
    if name.isIdentifier && allTypes arguments then some (name :: arguments) else none
  | _ => none

end Node

end TestTriage.Go
