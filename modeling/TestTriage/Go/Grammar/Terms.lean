import TestTriage.Go.Grammar.Types

/-!
# Rules for terms

A term is an operand, a binary expression or a type: within parentheses, brackets and the cases of a
type switch the two cannot be told apart by their first token, so both are read by the same rules
and the finished tree decides.  Binary operators are read as one flat chain, for nothing here
depends on their precedence.
-/

namespace TestTriage.Go.Grammar

variable (sub : Reading) (limit : Nat)

/-! ## Operands -/

/-- Parameters and result of a function literal or a function type, and the body.  Without a body it
is a type, which cannot end a line. -/
def functionTerm (place : Place) : Rule Node := do
  let parts ← signature sub .anyLine
  .read .anyLine (·.is openBrace)
    (fun _ => do return .node .functionLiteral (parts ++ [← sub .block]))
    (fun _ => if place.lines then .refuse (some openBrace) else .done (.node .functionType parts))

/-- An array or slice type behind its bracket, where the length may be left to the elements. -/
def arrayTerm : Rule Node :=
  .read .anyLine (·.is "...")
    (fun _ => do
      .expect "]"
      return .node .countedArrayType [← sub.type .anyLine])
    (fun _ => arrayType sub .anyLine)

/-- A term in parentheses, behind the opening one. -/
def parenthesized : Rule Node := do
  let x ← sub.term .inside
  .check (x.isBareType || x.isOperand)
  .expect ")"
  return .node (if x.isBareType then .parenType else .paren) [x]

/-- The first part of a term, before selectors, brackets and the like. -/
def primary (place : Place) (first : Lexeme) : Rule Node :=
  if first.isIdentifier then
    .done (if predeclaredValues.contains first.text then .node .predeclared [.token first]
      else .token first)
  else if first.isLiteral then .done (.token first)
  else match first.text with
  | "(" => parenthesized sub
  | "func" => functionTerm sub place
  | "[" => arrayTerm sub
  | "map" | "chan" | "struct" | "interface" => sub (.type .anyLine first)
  | _ => .refuse none

/-! ## Brackets behind an operand -/

/-- A slice of `x` behind its first colon; a third part needs the second. -/
def sliceRest (parts : List Node) : Rule Node :=
  .read .anyLine (·.startsTerm)
    (fun t => do
      let high ← sub.operandFrom .inside t
      .read .anyLine (·.is ":")
        (fun _ => do
          let most ← sub.operand .inside
          .expect "]"
          return .node .slice (parts ++ [high, most]))
        (fun _ => do
          .expect "]"
          return .node .slice (parts ++ [high])))
    (fun _ => do
      .expect "]"
      return .node .slice parts)

/-- An index, a slice, or type arguments, behind the bracket.  Several arguments, or a comma behind
one, are type arguments. -/
def brackets (x : Node) : Rule Node :=
  .read .anyLine (·.is ":")
    (fun _ => sliceRest sub [x])
    (fun _ => do
      let first ← sub.term .inside
      .check (first.isBareType || first.isOperand)
      .read .anyLine (fun l => l.is ":" || l.is ",")
        (fun l =>
          if l.is ":" then do
            .check first.isOperand
            sliceRest sub [x, first]
          else do
            let others ← .listUntil "]" (·.startsTerm) (fun t => sub (.term .inside t)) limit
            .check (x.isQualifiedName && Node.allTypes (first :: others))
            return .node .index (x :: first :: others))
        (fun _ => do
          .expect "]"
          return .node .index [x, first]))

/-! ## Calls -/

/-- One argument, perhaps spread. -/
def argument (first : Lexeme) : Rule Node := do
  let x ← sub.operandFrom .inside first
  .read .anyLine (·.is "...") (fun _ => .done (.node .spread [x])) (fun _ => .done x)

/-- The arguments of a call behind the opening parenthesis. -/
def arguments : Rule (List Node) := .listUntil ")" (·.startsTerm) (argument sub) limit

/-- The arguments of `new` and `make`: the first one is a type. -/
def typeThenArguments : Rule (List Node) :=
  .read .anyLine (·.startsTerm)
    (fun t => do
      let type ← sub (.term .inside t)
      .check (type.isType || type.isKind .predeclared)
      .read .anyLine (·.is ",")
        (fun _ => do
          let others ← .listUntil ")" (·.startsTerm) (sub.operandFrom .inside) limit
          return type :: others)
        (fun _ => do
          .expect ")"
          return [type]))
    (fun _ => do
      .expect ")"
      return [])

/-- Is the callee one of the two functions whose first argument is a type? -/
def takesType (callee : Node) : Bool :=
  callee.identifier?.any fun l => l.text == "new" || l.text == "make"

/-- What `f[X, …](arguments)` is, with `f` a bare identifier and every `X` a type: with exactly one
argument that is not spread a conversion to the type `f[X, …]`, otherwise a call of `f`. -/
def instantiated (parts arguments : List Node) : Node :=
  match arguments with
  | [x] => .node (if x.isKind .spread then .call else .conversion) (parts ++ [x])
  | _ => .node .call (parts ++ arguments)

/-- A call or conversion behind the opening parenthesis.  The first part of a call is its callee. -/
def call (callee : Node) : Rule Node :=
  if callee.isBareType then do
    let xs ← arguments sub limit
    match xs with
    | [x] => do
      .check x.isOperand
      return .node .conversion [callee, x]
    | _ => .refuse none
  else if takesType callee then do return .node .call (callee :: (← typeThenArguments sub limit))
  else do
    let xs ← arguments sub limit
    match callee.instantiation? with
    | some parts => return instantiated parts xs
    | none => return .node .call (callee :: xs)

/-! ## What follows an operand -/

/-- Does a brace behind this term open a composite literal? -/
def opensLiteral (place : Place) (x : Node) : Bool :=
  x.isLiteralType || (place.literals && x.isTypeName)

/-- Does the token carry the term on? -/
def continues (place : Place) (x : Node) (l : Lexeme) : Bool :=
  ((l.is "." || l.is "[") && x.isOperand)
    || (l.is "(" && (x.isOperand || x.isBareType))
    || (l.is openBrace && opensLiteral place x)

/-- A selector, a type assertion or the guard of a type switch, behind the dot. -/
def behindDot (x : Node) : Rule Node :=
  .read .anyLine (fun l => l.isIdentifier || l.is "(")
    (fun l =>
      if l.is "(" then
        .read .anyLine (·.is "type")
          (fun _ => do
            .expect ")"
            return .node .typeGuard [x])
          (fun _ => do
            let type ← sub.type .anyLine
            .expect ")"
            return .node .assertion [x, type])
      else .done (.node .selector [x, .token l]))
    (fun _ => .refuse none)

/-- The part of a term that the token `l` begins, behind `x`. -/
def suffix (x : Node) (l : Lexeme) : Rule Node :=
  match l.text with
  | "." => behindDot sub x
  | "[" => brackets sub limit x
  | "(" => call sub limit x
  | _ => do return .node .composite [x, ← sub .values]

/-- Selectors, brackets, calls and literals behind `x`.  A bare type cannot end a line. -/
def suffixes (place : Place) (x : Node) : (count : Nat) → Rule Node
  | 0 => .refuse none
  | count + 1 =>
    .read (if x.isOperand then place.gap else .anyLine) (continues place x)
      (fun l => do suffixes place (← suffix sub limit x l) count)
      (fun _ => .done x)

/-! ## Operators -/

/-- A unary operator's expression.  Behind an asterisk a bare type makes a pointer type, and behind
an arrow a channel type makes another. -/
def unaryOf (operator : Lexeme) (x : Node) : Rule Node :=
  if operator.is "*" && x.isBareType then .done (.node .pointerType [x])
  else if operator.is "<-" && x.isKind .channelType then .done (.node .channelType [x])
  else do
    .check x.isOperand
    return .node (if operator.is "*" then .dereference else .unary) [x]

/-- A term without binary operators. -/
def unary (place : Place) (first : Lexeme) : Rule Node :=
  if first.isOneOf ["+", "-", "!", "^", "&", "*", "<-"] then do
    let t ← .token (·.startsTerm)
    unaryOf first (← sub (.unary place t))
  else do
    suffixes sub limit place (← primary sub place first) limit

/-- Binary operators and their right operands. -/
def operatorsRest (place : Place) : Rule (List Node) :=
  .many place.gap (·.isOneOf binaryOperators)
    (fun _ => do
      let x ← sub (.unary place (← .token (·.startsTerm)))
      .check x.isOperand
      return x) limit

/-- A chain of binary operators with its first operand in hand. -/
def binaryFrom (place : Place) (x : Node) : Rule Node :=
  if x.isOperand then do
    match ← operatorsRest sub limit place with
    | [] => return x
    | ys => return .node .binary (x :: ys)
  else .done x

/-- A term by its first token. -/
def termFrom (place : Place) (first : Lexeme) : Rule Node := do
  binaryFrom sub limit place (← sub (.unary place first))

/-- The rest of a term whose first operand has been read. -/
def resume (place : Place) (x : Node) : Rule Node := do
  binaryFrom sub limit place (← suffixes sub limit place x limit)

/-! ## Composite literals -/

/-- The first token of a value in a composite literal. -/
def startsValue (l : Lexeme) : Bool := l.is openBrace || l.startsTerm

/-- A value, which may be a list of values in braces of its own. -/
def value (first : Lexeme) : Rule Node :=
  if first.is openBrace then sub .values else sub.operandFrom .inside first

/-- A value or a key and its value. -/
def keyedValue (first : Lexeme) : Rule Node := do
  let x ← value sub first
  .read .anyLine (·.is ":")
    (fun _ => do return .node .pair [x, ← value sub (← .token startsValue)])
    (fun _ => .done x)

/-- The values of a composite literal behind the opening brace. -/
def values : Rule Node := do
  return .node .values (← .listUntil closeBrace startsValue (keyedValue sub) limit)

end TestTriage.Go.Grammar
