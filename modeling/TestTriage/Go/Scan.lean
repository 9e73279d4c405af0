import TestTriage.Go.Letter
import TestTriage.Go.Lexeme

/-!
# Reading lexemes off the source text

The lexemes of Go form a regular language, given here as an automaton: `Scan.step` says how a state
reads one character, `Scan.accepts` which states end a lexeme.  `longest` runs the automaton and
keeps the last accepting position, so the text is cut by longest match.  What follows a lexeme
decides only that it is not longer: cutting the text off right behind a lexeme leaves the lexeme as
it is.
-/

namespace TestTriage.Go

/-! ## Numerals -/

/-- The digits a numeral with a base sign may hold. -/
inductive Base where
  | binary
  | octal
  | hexadecimal
  deriving Repr, DecidableEq

def isHexDigit (c : Char) : Bool :=
  c.isDigit || ('a' ≤ c && c ≤ 'f') || ('A' ≤ c && c ≤ 'F')

def isOctalDigit (c : Char) : Bool := '0' ≤ c && c ≤ '7'

def Base.hasDigit : Base → Char → Bool
  | .binary, c => c == '0' || c == '1'
  | .octal, c => isOctalDigit c
  | .hexadecimal, c => isHexDigit c

/-- How far a numeral has been read.  A `separated` state has just read an underscore and needs a
digit. -/
inductive Numeral where
  /-- A lone `0`. -/
  | zero
  /-- Digits that start with `1` to `9`. -/
  | decimal (separated : Bool)
  /-- `0` and octal digits. -/
  | octal (separated : Bool)
  /-- `0` and digits with an `8` or `9`: not an integer, but it may become a float. -/
  | padded (separated : Bool)
  /-- A base sign such as `0x`, with nothing behind it. -/
  | based (base : Base)
  | basedDigits (base : Base) (separated : Bool)
  /-- The decimal point behind decimal digits. -/
  | point
  | fraction (separated : Bool)
  /-- `0x.`, which needs a digit. -/
  | hexPointFirst
  /-- The point behind hexadecimal digits; an exponent has to follow. -/
  | hexPoint
  | hexFraction (separated : Bool)
  /-- The exponent letter. -/
  | exponentLetter
  | exponentSign
  | exponent (separated : Bool)
  | imaginary
  deriving Repr, DecidableEq

namespace Numeral

/-- The steps that decimal digits before a point have in common. -/
def leaveInteger (c : Char) : Option Numeral :=
  if c == '.' then some .point
  else if c == 'e' || c == 'E' then some .exponentLetter
  else if c == 'i' then some .imaginary
  else none

def step : Numeral → Char → Option Numeral
  | .zero, c =>
    if c == 'x' || c == 'X' then some (.based .hexadecimal)
    else if c == 'b' || c == 'B' then some (.based .binary)
    else if c == 'o' || c == 'O' then some (.based .octal)
    else if isOctalDigit c then some (.octal false)
    else if c.isDigit then some (.padded false)
    else if c == '_' then some (.octal true)
    else leaveInteger c
  | .decimal separated, c =>
    if c.isDigit then some (.decimal false)
    else if separated then none
    else if c == '_' then some (.decimal true)
    else leaveInteger c
  | .octal separated, c =>
    if isOctalDigit c then some (.octal false)
    else if c.isDigit then some (.padded false)
    else if separated then none
    else if c == '_' then some (.octal true)
    else leaveInteger c
  | .padded separated, c =>
    if c.isDigit then some (.padded false)
    else if separated then none
    else if c == '_' then some (.padded true)
    else leaveInteger c
  | .based base, c =>
    if c == '_' then some (.basedDigits base true)
    else if base.hasDigit c then some (.basedDigits base false)
    else if base = .hexadecimal ∧ c = '.' then some .hexPointFirst
    else none
  | .basedDigits base separated, c =>
    if base.hasDigit c then some (.basedDigits base false)
    else if separated then none
    else if c == '_' then some (.basedDigits base true)
    else if c == 'i' then some .imaginary
    else if base = .hexadecimal ∧ c = '.' then some .hexPoint
    else if base = .hexadecimal ∧ (c = 'p' ∨ c = 'P') then some .exponentLetter
    else none
  | .point, c =>
    if c.isDigit then some (.fraction false)
    else if c == 'e' || c == 'E' then some .exponentLetter
    else if c == 'i' then some .imaginary
    else none
  | .fraction separated, c =>
    if c.isDigit then some (.fraction false)
    else if separated then none
    else if c == '_' then some (.fraction true)
    else if c == 'e' || c == 'E' then some .exponentLetter
    else if c == 'i' then some .imaginary
    else none
  | .hexPointFirst, c => if isHexDigit c then some (.hexFraction false) else none
  | .hexPoint, c =>
    if isHexDigit c then some (.hexFraction false)
    else if c == 'p' || c == 'P' then some .exponentLetter
    else none
  | .hexFraction separated, c =>
    if isHexDigit c then some (.hexFraction false)
    else if separated then none
    else if c == '_' then some (.hexFraction true)
    else if c == 'p' || c == 'P' then some .exponentLetter
    else none
  | .exponentLetter, c =>
    if c == '+' || c == '-' then some .exponentSign
    else if c.isDigit then some (.exponent false)
    else none
  | .exponentSign, c => if c.isDigit then some (.exponent false) else none
  | .exponent separated, c =>
    if c.isDigit then some (.exponent false)
    else if separated then none
    else if c == '_' then some (.exponent true)
    else if c == 'i' then some .imaginary
    else none
  | .imaginary, _ => none

/-- Is what has been read a whole numeral? -/
def whole : Numeral → Bool
  | .zero | .point | .imaginary => true
  | .decimal separated | .octal separated | .basedDigits _ separated | .fraction separated
  | .exponent separated => !separated
  | .padded _ | .based _ | .hexPointFirst | .hexPoint | .hexFraction _ | .exponentLetter
  | .exponentSign => false

end Numeral

/-! ## The automaton -/

/-- How far a lexeme has been read. -/
inductive Scan where
  | word
  | blank
  | newline
  /-- Characters that begin some operator. -/
  | operator (seen : List Char)
  | number (numeral : Numeral)
  | lineComment
  | blockComment
  /-- In a block comment, behind an asterisk. -/
  | blockStar
  | blockEnd
  /-- In an interpreted string. -/
  | string
  | stringEscape
  /-- In the digits of a string escape. -/
  | stringDigits (left : Nat)
  | rawString
  | stringEnd
  /-- Behind the opening quote of a rune. -/
  | rune
  | runeEscape
  | runeHex (left : Nat)
  | runeOctal (left : Nat)
  /-- A rune that needs its closing quote. -/
  | runeClose
  | runeEnd
  deriving Repr, DecidableEq

namespace Scan

def isBlank (c : Char) : Bool :=
  c == ' ' || c == '\t' || c == '\r' || c == '\x0b' || c == '\x0c'

/-- Do the characters begin some operator? -/
def beginsOperator (cs : List Char) : Bool := operators.any fun o => cs.isPrefixOf o.toList

/-- After how many hexadecimal digits a string or rune escape with this letter may end. -/
def escapeDigits? (c : Char) : Option Nat :=
  if c == 'x' then some 2 else if c == 'u' then some 4 else if c == 'U' then some 8 else none

/-- The state behind the first character of a lexeme. -/
def first (c : Char) : Option Scan :=
  if c == '\n' then some .newline
  else if isBlank c then some .blank
  else if isLetter c then some .word
  else if c == '0' then some (.number .zero)
  else if c.isDigit then some (.number (.decimal false))
  else if c == '"' then some .string
  else if c == '\x60' then some .rawString
  else if c == '\'' then some .rune
  else if beginsOperator [c] then some (.operator [c])
  else none

def step : Scan → Char → Option Scan
  | .word, c => if isLetterOrDigit c then some .word else none
  | .blank, c => if isBlank c then some .blank else none
  | .operator seen, c =>
    if seen = ['/'] ∧ c = '/' then some .lineComment
    else if seen = ['/'] ∧ c = '*' then some .blockComment
    else if seen = ['.'] ∧ c.isDigit then some (.number (.fraction false))
    else if beginsOperator (seen ++ [c]) then some (.operator (seen ++ [c]))
    else none
  | .number numeral, c => (numeral.step c).map .number
  | .lineComment, c => if c == '\n' then none else some .lineComment
  | .blockComment, c => if c == '*' then some .blockStar else some .blockComment
  | .blockStar, c =>
    if c == '/' then some .blockEnd else if c == '*' then some .blockStar else some .blockComment
  | .string, c =>
    if c == '"' then some .stringEnd
    else if c == '\\' then some .stringEscape
    else if c == '\n' then none
    else some .string
  | .stringEscape, c =>
    match escapeDigits? c with
    | some digits => some (.stringDigits digits)
    | none => some .string
  | .stringDigits left, c =>
    if isHexDigit c then some (if left ≤ 1 then .string else .stringDigits (left - 1)) else none
  | .rawString, c => if c == '\x60' then some .stringEnd else some .rawString
  | .rune, c =>
    if c == '\\' then some .runeEscape else if c == '\'' then none else some .runeClose
  | .runeEscape, c =>
    match escapeDigits? c with
    | some digits => some (.runeHex digits)
    | none =>
      if isOctalDigit c then some (.runeOctal 2)
      else if "abfnrtv\\'\"".toList.contains c then some .runeClose
      else none
  | .runeHex left, c =>
    if isHexDigit c then some (if left ≤ 1 then .runeClose else .runeHex (left - 1)) else none
  | .runeOctal left, c =>
    if isOctalDigit c then some (if left ≤ 1 then .runeClose else .runeOctal (left - 1)) else none
  | .runeClose, c => if c == '\'' then some .runeEnd else none
  | .newline, _ | .blockEnd, _ | .stringEnd, _ | .runeEnd, _ => none

/-- The class of the lexeme that ends in this state, if one may end there. -/
def accepts : Scan → Option Lexeme.Kind
  | .word => some .identifier
  | .blank => some .blank
  | .newline => some .newline
  | .operator seen => if operators.any (·.toList == seen) then some .operator else none
  | .number numeral => if numeral.whole then some .number else none
  | .lineComment | .blockEnd => some .comment
  | .stringEnd => some .string
  | .runeEnd => some .rune
  | _ => none

/-- The longest accepted piece at the front of the text, with the class it has and what is left. -/
def longest (state : Scan) : List Char → Option (Lexeme.Kind × List Char × List Char)
  | [] => state.accepts.map fun kind => (kind, [], [])
  | c :: cs =>
    match (state.step c).bind fun next => longest next cs with
    | some (kind, piece, rest) => some (kind, c :: piece, rest)
    | none => state.accepts.map fun kind => (kind, [], c :: cs)

end Scan

/-! ## Source text as lexemes -/

/-- The lexeme with the given class and characters; a word that is reserved becomes a keyword. -/
def Lexeme.make (kind : Lexeme.Kind) (chars : List Char) : Lexeme :=
  let text := String.ofList chars
  if kind = .identifier ∧ keywords.contains text then ⟨.keyword, text⟩ else ⟨kind, text⟩

/-- The first lexeme of a text that starts with `c`, and the text behind it. -/
def nextLexeme (c : Char) (cs : List Char) : Lexeme × List Char :=
  match (Scan.first c).bind fun state => state.longest cs with
  | some (kind, piece, rest) => (.make kind (c :: piece), rest)
  | none => (.make .stray [c], cs)

/-- The lexemes of a text of at most `limit` characters. -/
def lexemesUpTo : (limit : Nat) → List Char → List Lexeme
  | 0, _ | _, [] => []
  | limit + 1, c :: cs =>
    let (lexeme, rest) := nextLexeme c cs
    lexeme :: lexemesUpTo limit rest

/-- A byte order mark, which may stand at the start of a file and counts as blank there. -/
def byteOrderMark : Char := '\ufeff'

/-- The lexemes of a source file. -/
def lexemes (source : String) : List Lexeme :=
  match source.toList with
  | [] => []
  | c :: cs =>
    if c = byteOrderMark then .make .blank [c] :: lexemesUpTo cs.length cs
    else lexemesUpTo (cs.length + 1) (c :: cs)

end TestTriage.Go
