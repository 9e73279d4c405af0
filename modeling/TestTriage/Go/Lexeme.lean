/-!
# Lexemes of Go source text

A lexeme is a piece of source text together with its class.  Blanks, line ends and comments are
lexemes too, and so is a character that starts nothing else (`stray`), so a source text is always
the concatenation of its lexemes.  Rows and byte offsets are never stored: they are counts over the
lexemes that come before.
-/

namespace TestTriage.Go

/-- The class of a lexeme. -/
inductive Lexeme.Kind where
  | identifier
  | keyword
  | number
  | string
  | rune
  | operator
  /-- A line comment without its line end, or a block comment. -/
  | comment
  /-- A single line feed outside comments and literals. -/
  | newline
  /-- A run of white space other than line feeds. -/
  | blank
  /-- A character that starts no other lexeme. -/
  | stray
  deriving Repr, DecidableEq, Inhabited

/-- A piece of source text and its class. -/
structure Lexeme where
  kind : Lexeme.Kind
  text : String
  deriving Repr, DecidableEq, Inhabited

/-- The reserved words.  None of them is an identifier anywhere. -/
def keywords : List String :=
  ["break", "case", "chan", "const", "continue", "default", "defer", "else", "fallthrough", "for",
   "func", "go", "goto", "if", "import", "interface", "map", "package", "range", "return", "select",
   "struct", "switch", "type", "var"]

/-- Operators and punctuation.  The braces are written by their code. -/
def operators : List String :=
  ["+", "-", "*", "/", "%", "&", "|", "^", "<<", ">>", "&^",
   "+=", "-=", "*=", "/=", "%=", "&=", "|=", "^=", "<<=", ">>=", "&^=",
   "&&", "||", "<-", "++", "--", "==", "<", ">", "=", "!", "~", "!=", "<=", ">=", ":=", "...",
   "(", ")", "[", "]", "\x7b", "\x7d", ",", ";", ".", ":"]

/-- Tokens that can begin a type. -/
def typeStarts : List String :=
  ["*", "(", "[", "<-", "chan", "func", "interface", "map", "struct"]

/-- Tokens that can begin an operand or a type, identifiers and literals apart. -/
def termStarts : List String :=
  typeStarts ++ ["+", "-", "!", "^", "&"]

/-- Binary operators. -/
def binaryOperators : List String :=
  ["||", "&&", "==", "!=", "<", "<=", ">", ">=", "+", "-", "|", "^", "*", "/", "%", "<<", ">>",
   "&", "&^"]

/-- Assignment operators that also compute. -/
def updateOperators : List String :=
  ["+=", "-=", "*=", "/=", "%=", "&=", "|=", "^=", "<<=", ">>=", "&^="]

/-- Names of the values every Go program knows.  As operands they are not identifiers. -/
def predeclaredValues : List String := ["nil", "true", "false", "iota"]

/-- The text of the opening brace. -/
def openBrace : String := "\x7b"

/-- The text of the closing brace. -/
def closeBrace : String := "\x7d"

namespace Lexeme

/-- Does the lexeme read as this text?  Meant for keywords and operators, whose texts no other kind
of token has. -/
def is (l : Lexeme) (text : String) : Bool := l.text == text

/-- Is the lexeme one of these keywords or operators? -/
def isOneOf (l : Lexeme) (texts : List String) : Bool := texts.contains l.text

/-- Blanks and comments, which may stand between any two tokens. -/
def isGap (l : Lexeme) : Bool := l.kind == .blank || l.kind == .comment

/-- Everything that is not white space or comment. -/
def isToken (l : Lexeme) : Bool := !l.isGap && l.kind != .newline

def isIdentifier (l : Lexeme) : Bool := l.kind == .identifier

def isLiteral (l : Lexeme) : Bool := l.kind == .number || l.kind == .string || l.kind == .rune

/-- Can a type begin here? -/
def startsType (l : Lexeme) : Bool := l.isIdentifier || l.isOneOf typeStarts

/-- Can an operand or a type begin here? -/
def startsTerm (l : Lexeme) : Bool := l.isIdentifier || l.isLiteral || l.isOneOf termStarts

/-- A line end or semicolon. -/
def endsStatement (l : Lexeme) : Bool := l.kind == .newline || l.is ";"

/-- Number of line feeds in the text, that is the number of rows it moves down. -/
def rows (l : Lexeme) : Nat := l.text.toList.count '\n'

/-- Number of bytes of the text in UTF-8. -/
def bytes (l : Lexeme) : Nat := l.text.utf8ByteSize

/-- The text a list of lexemes spells. -/
def spell (ls : List Lexeme) : String := String.join (ls.map Lexeme.text)

/-- The rows a list of lexemes moves down. -/
def rowsOf (ls : List Lexeme) : Nat := ls.foldr (fun l n => l.rows + n) 0

/-- The bytes a list of lexemes takes. -/
def bytesOf (ls : List Lexeme) : Nat := ls.foldr (fun l n => l.bytes + n) 0

end Lexeme

end TestTriage.Go
