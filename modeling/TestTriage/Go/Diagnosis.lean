import TestTriage.Go.Pieces
import TestTriage.Text.WhiteSpace

/-!
# Where a source text is wrong

A text that is no file is explained by its smallest repair at the place where reading stopped.  If
the text would be whole without the token there, that token is in the way; otherwise, if just one
token could have stood there, it is missing.
-/

namespace TestTriage.Go

/-- What is wrong, and where: a row and a column in bytes, counted from zero. -/
structure Diagnosis where
  row : Nat
  column : Nat
  message : String
  deriving Repr, DecidableEq

namespace Diagnosis

/-- Row and column behind some lexemes. -/
def place (before : List Lexeme) : Nat × Nat :=
  let cs := (Lexeme.spell before).toList
  (cs.count '\n', (cs.reverse.takeWhile (· != '\n')).foldr (fun c n => c.utf8Size + n) 0)

/-- At most forty characters, the last three being dots if some were left out. -/
def shorten (cs : List Char) : List Char :=
  if cs.length ≤ 40 then cs else cs.take 37 ++ ['.', '.', '.']

/-- The message about a piece of text: its first line, without the white space around it. -/
def near (text : String) : String :=
  let cs := Text.trim (text.toList.takeWhile (· != '\n'))
  if cs.isEmpty then "syntax error" else "syntax error near `" ++ String.ofList (shorten cs) ++ "`"

/-- A message about the place behind some lexemes. -/
def behind (before : List Lexeme) (message : String) : Diagnosis :=
  let (row, column) := place before
  { row, column, message }

/-- A text without any token of Go is wrong from its first to its last character. -/
def ofNoTokens (ls : List Lexeme) : Diagnosis :=
  let before := ls.takeWhile (!·.isToken)
  let strays := Text.dropEndWhile (!·.isToken) (ls.drop before.length)
  behind before (near (Lexeme.spell strays))

/-- What is wrong at the place where reading gave up. -/
def ofRefusal (ls : List Lexeme) (refusal : Refusal) : Diagnosis :=
  let before := consumed ls refusal.rest
  let white := refusal.rest.takeWhile (!·.isToken)
  let missing := refusal.wanted.map fun token => behind before ("missing `" ++ token ++ "`")
  match refusal.rest.drop white.length with
  | [] => missing.getD (behind before "syntax error")
  | l :: others =>
    let inTheWay := behind (before ++ white) (near l.text)
    match pieces (before ++ white ++ others) with
    | .ok _ => inTheWay
    | .error _ => missing.getD inTheWay

end Diagnosis

/-- What is wrong with a text that is no source file. -/
def diagnose (ls : List Lexeme) (refusal : Refusal) : Diagnosis :=
  if ls.all fun l => !l.isToken || l.kind == .stray then .ofNoTokens ls
  else .ofRefusal ls refusal

end TestTriage.Go
