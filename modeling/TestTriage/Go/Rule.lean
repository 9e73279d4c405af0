import TestTriage.Go.Lexeme

/-!
# Grammar rules as decision trees

A rule reads lexemes from the left and decides by the next token alone.  It is a tree: at each node
the next token either fits, and then is read, or is left where it is.  Since a token that does not
fit stays unread, and the end of the text never fits, a rule that has succeeded did so on account of
the lexemes it has read and of nothing behind them.
-/

namespace TestTriage.Go

/-- What may stand in front of the next token. -/
inductive Gap where
  /-- Blanks and comments; a line end counts as a token. -/
  | sameLine
  /-- Line ends too. -/
  | anyLine
  deriving Repr, DecidableEq

/-- Is the lexeme passed over in front of the next token? -/
def Gap.passes (gap : Gap) (l : Lexeme) : Bool :=
  l.isGap || (gap == .anyLine && l.kind == .newline)

/-- The lexemes from the next token on. -/
def Gap.skip (gap : Gap) (ls : List Lexeme) : List Lexeme := ls.dropWhile gap.passes

/-- A rule that yields an `α`. -/
inductive Rule (α : Type) where
  | done (value : α)
  /-- No reading fits.  If just one token could have stood here, it is `wanted`. -/
  | refuse (wanted : Option String)
  /-- Read the next token if it fits, and leave it unread otherwise. -/
  | read (gap : Gap) (fits : Lexeme → Bool) (onFit : Lexeme → Rule α) (otherwise : Unit → Rule α)

/-- Where a rule gave up: the lexemes not read yet, and the token it would have taken. -/
structure Refusal where
  rest : List Lexeme
  wanted : Option String
  deriving Repr, DecidableEq

namespace Rule

/-- Read from a list of lexemes; the second part of the answer is what is left. -/
def run : Rule α → List Lexeme → Except Refusal (α × List Lexeme)
  | .done value, ls => .ok (value, ls)
  | .refuse wanted, ls => .error ⟨ls, wanted⟩
  | .read gap fits onFit otherwise, ls =>
    match gap.skip ls with
    | [] => (otherwise ()).run ls
    | l :: rest => if fits l then (onFit l).run rest else (otherwise ()).run ls

/-- One rule after another. -/
def andThen : Rule α → (α → Rule β) → Rule β
  | .done value, next => next value
  | .refuse wanted, _ => .refuse wanted
  | .read gap fits onFit otherwise, next =>
    .read gap fits (fun l => (onFit l).andThen next) (fun _ => (otherwise ()).andThen next)

instance : Monad Rule where
  pure := .done
  bind := andThen

/-- The next token, which has to fit. -/
def token (fits : Lexeme → Bool) (wanted : Option String := none) : Rule Lexeme :=
  .read .anyLine fits .done fun _ => .refuse wanted

/-- The next token, which has to read so. -/
def expect (text : String) : Rule Unit :=
  .read .anyLine (·.is text) (fun _ => .done ()) fun _ => .refuse (some text)

/-- Go on only if the condition holds. -/
def check (condition : Bool) : Rule Unit := if condition then .done () else .refuse none

/-- Items as long as the next token fits, behind those that `reversed` holds. -/
def manyBehind (gap : Gap) (fits : Lexeme → Bool) (item : Lexeme → Rule α) :
    (limit : Nat) → (reversed : List α) → Rule (List α)
  | 0, _ => .refuse none
  | limit + 1, reversed =>
    .read gap fits
      (fun l => do manyBehind gap fits item limit ((← item l) :: reversed))
      (fun _ => .done reversed.reverse)

/-- At most `limit` items, as long as the next token fits. -/
def many (gap : Gap) (fits : Lexeme → Bool) (item : Lexeme → Rule α) (limit : Nat) :
    Rule (List α) :=
  manyBehind gap fits item limit []

/-- Items up to the closing token, behind those that `reversed` holds. -/
def listBehind (close : String) (fits : Lexeme → Bool) (item : Lexeme → Rule α) :
    (limit : Nat) → (reversed : List α) → Rule (List α)
  | 0, _ => .refuse none
  | limit + 1, reversed =>
    .read .anyLine fits
      (fun l => do
        let reversed := (← item l) :: reversed
        .read .anyLine (·.is ",")
          (fun _ => listBehind close fits item limit reversed)
          (fun _ => do expect close; return reversed.reverse))
      (fun _ => do expect close; return reversed.reverse)

/-- Items parted by commas up to the closing token, which is read too.  A comma may stand behind the
last item. -/
def listUntil (close : String) (fits : Lexeme → Bool) (item : Lexeme → Rule α) (limit : Nat) :
    Rule (List α) :=
  listBehind close fits item limit []

end Rule

end TestTriage.Go
