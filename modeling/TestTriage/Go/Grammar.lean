import TestTriage.Go.Grammar.Items

/-!
# The grammar, closed

`reading n` reads goals that nest at most `n` deep.  The limit used is larger than the number of
lexemes of any text of less than four gigabytes, so it refuses none of those.
-/

namespace TestTriage.Go.Grammar

/-- Goals that nest at most so deep, with lists of at most as many parts. -/
def reading : (depth : Nat) → Reading
  | 0, _ => .refuse none
  | depth + 1, goal =>
    let sub := reading depth
    match goal with
    | .type gap first => typeFrom sub depth gap first
    | .parameters => parameters sub depth
    | .term place first => termFrom sub depth place first
    | .resume place operand => resume sub depth place operand
    | .unary place first => unary sub depth place first
    | .values => values sub depth
    | .block => block sub depth
    | .statement first => statement sub depth first

/-- The nesting limit. -/
def nestingLimit : Nat := Nat.pow 2 32

/-- An item of the top level, its first token in hand. -/
def itemFrom (first : Lexeme) : Rule Node := item (reading nestingLimit) nestingLimit first

end TestTriage.Go.Grammar
