import TestTriage.Go.Grammar.Terms

/-!
# Rules for statements

A statement ends at a line end or semicolon, or where its list of statements ends.  The header of a
control statement is not closed by a line end, so its block may stand on a line of its own.
-/

namespace TestTriage.Go.Grammar

variable (sub : Reading) (limit : Nat)

/-- Tokens that begin a statement, those of terms apart. -/
def statementStarts : List String :=
  [openBrace, "var", "const", "type", "return", "go", "defer", "if", "for", "switch", "select",
   "break", "continue", "goto", "fallthrough"]

def startsStatement (l : Lexeme) : Bool := l.startsTerm || l.isOneOf statementStarts

/-! ## Simple statements -/

/-- Operands behind a comma. -/
def moreOperands (place : Place) : Rule (List Node) :=
  .many place.gap (·.is ",") (fun _ => sub.operand place) limit

/-- Operands parted by commas, the first of which is in hand. -/
def operandsFrom (place : Place) (first : Lexeme) : Rule (List Node) := do
  let x ← sub.operandFrom place first
  return x :: (← moreOperands sub limit place)

/-- Operands parted by commas, at least one. -/
def operands (place : Place) : Rule (List Node) := do
  operandsFrom sub limit place (← .token (·.startsTerm))

/-- The right side of `:=`, which may be the guard of a type switch. -/
def definition (place : Place) (left : List Node) : Rule Node := do
  let x ← sub.term place
  if x.isKind .typeGuard then return .node .define [.node .list left, x]
  else
    .check x.isOperand
    return .node .define [.node .list left, .node .list (x :: (← moreOperands sub limit place))]

/-- The right side of an assignment; in the header of a `for` it may be a range. -/
def assignment (place : Place) (ranges : Bool) (left : List Node) (operator : Lexeme) : Rule Node :=
  if operator.isOneOf updateOperators then do
    return .node .update [.node .list left, .node .list (← operands sub limit place)]
  else
    .read .anyLine (fun l => ranges && l.is "range")
      (fun _ => do return .node .rangeClause [.node .list left, ← sub.operand place])
      (fun _ =>
        if operator.is ":=" then definition sub limit place left
        else do return .node .assign [.node .list left, .node .list (← operands sub limit place)])

/-- A simple statement whose first term is in hand.  `ranges` allows the range of a `for`. -/
def simpleFrom (place : Place) (ranges : Bool) (x : Node) : Rule Node :=
  if x.isKind .typeGuard then .done (.node .expression [x])
  else do
    .check x.isOperand
    let left := x :: (← moreOperands sub limit place)
    .read place.gap (fun l => l.isOneOf ["=", ":="] || l.isOneOf updateOperators)
      (assignment sub limit place ranges left)
      (fun _ => do
        .check (left.length = 1)
        .read place.gap (fun l => l.isOneOf ["++", "--", "<-"])
          (fun l => do
            if l.is "<-" then return .node .send [x, ← sub.operand place]
            else return .node .increment [x])
          (fun _ => .done (.node .expression [x])))

/-- A simple statement by its first token. -/
def simple (place : Place) (ranges : Bool) (first : Lexeme) : Rule Node := do
  simpleFrom sub limit place ranges (← sub (.term place first))

/-- Does a simple statement end in the guard of a type switch? -/
def hasGuard (s : Node) : Bool := s.children.any (·.isKind .typeGuard)

/-- An operand alone. -/
def isCondition (s : Node) : Bool := s.isKind .expression && !hasGuard s

/-! ## Blocks -/

/-- Statements, as many as there are, behind those that `reversed` holds. -/
def statementsBehind : (count : Nat) → (reversed : List Node) → Rule (List Node)
  | 0, _ => .refuse none
  | count + 1, reversed =>
    .read .anyLine (fun l => l.is ";" || startsStatement l)
      (fun l => do
        let s ← if l.is ";" then .done (.node .empty []) else sub (.statement l)
        .read .sameLine (·.endsStatement)
          (fun _ => statementsBehind count (s :: reversed))
          (fun _ => .done (s :: reversed).reverse))
      (fun _ => .done reversed.reverse)

/-- Statements, as many as there are. -/
def statements (count : Nat) : Rule (List Node) := statementsBehind sub count []

/-- A block behind the opening brace. -/
def block : Rule Node := do
  let body ← statements sub limit
  .expect closeBrace
  return .node .block body

/-- A block with both braces. -/
def blockWithBraces : Rule Node := do
  .expect openBrace
  sub .block

/-! ## Control statements -/

/-- `if`, with its branches. -/
def ifStatement : Rule Node := do
  let first ← simple sub limit .header false (← .token (·.startsTerm))
  .check !hasGuard first
  let header ← .read .anyLine (·.is ";")
    (fun _ => do return [first, ← sub.operand .header])
    (fun _ => do
      .check (isCondition first)
      return [first])
  let body ← blockWithBraces sub
  .read .sameLine (·.is "else")
    (fun _ =>
      .read .anyLine (fun l => l.is "if" || l.is openBrace)
        (fun l => do
          let other ← if l.is "if" then sub (.statement l) else sub .block
          return .node .ifStatement (header ++ [body, other]))
        (fun _ => .refuse none))
    (fun _ => .done (.node .ifStatement (header ++ [body])))

/-- The condition and the step of a `for`, behind the first semicolon. -/
def forRest : Rule (List Node) := do
  let condition ← .read .anyLine (·.startsTerm)
    (fun t => do return [← sub.operandFrom .header t])
    (fun _ => .done [])
  .expect ";"
  let step ← .read .anyLine (·.startsTerm)
    (fun t => do
      let s ← simple sub limit .header false t
      .check !hasGuard s
      return [s])
    (fun _ => .done [])
  return condition ++ step

/-- The header of a `for`. -/
def forHeader : Rule (List Node) :=
  .read .anyLine (fun l => l.isOneOf ["range", ";"] || l.startsTerm)
    (fun l =>
      if l.is "range" then do return [.node .rangeClause [← sub.operand .header]]
      else if l.is ";" then forRest sub limit
      else do
        let s ← simple sub limit .header true l
        .check !hasGuard s
        if s.isKind .rangeClause then return [s]
        else
          .read .anyLine (·.is ";")
            (fun _ => do return s :: (← forRest sub limit))
            (fun _ => do
              .check (isCondition s)
              return [s]))
    (fun _ => .done [])

def forStatement : Rule Node := do
  let header ← forHeader sub limit
  return .node .forStatement (header ++ [← blockWithBraces sub])

/-- Terms parted by commas behind the word `case`. -/
def caseTerms : Rule (List Node) := do
  let x ← sub.term .inside
  return x :: (← .many .anyLine (·.is ",") (fun _ => sub.term .inside) limit)

/-- The clauses of a `switch` or `select` behind the opening brace, and the closing one.  `head`
reads what stands behind the word `case`. -/
def clauses (head : Rule (List Node)) : Rule (List Node) := do
  let cs ← .many .anyLine (fun l => l.is "case" || l.is "default")
    (fun l => do
      let parts ← if l.is "case" then head else .done []
      .expect ":"
      return .node .clause (parts ++ (← statements sub limit))) limit
  .expect closeBrace
  return cs

/-- What stands behind `case`: types in a type switch, operands otherwise. -/
def caseHead (types : Bool) : Rule (List Node) := do
  let xs ← caseTerms sub limit
  .check (xs.all fun x => if types then x.isType || x.isKind .predeclared else x.isOperand)
  return xs

/-- `switch`, with a statement in front of its value if there is one. -/
def switchStatement : Rule Node := do
  let header ← .read .anyLine (·.startsTerm)
    (fun t => do
      let first ← simple sub limit .header false t
      .read .anyLine (·.is ";")
        (fun _ => do
          .check !hasGuard first
          .read .anyLine (·.startsTerm)
            (fun t => do
              let second ← simple sub limit .header false t
              .check (isCondition second || hasGuard second)
              return [first, second])
            (fun _ => .done [first]))
        (fun _ => do
          .check (isCondition first || hasGuard first)
          return [first]))
    (fun _ => .done [])
  .expect openBrace
  let cs ← clauses sub limit (caseHead sub limit (header.any hasGuard))
  return .node .switchStatement (header ++ cs)

/-- What stands behind `case` in a `select`: a send, a receive, or a receive with names. -/
def communication : Rule (List Node) := do
  let s ← simple sub limit .inside false (← .token (·.startsTerm))
  .check (isCondition s || s.isKind .send
    || ((s.isKind .assign || s.isKind .define) && !hasGuard s
      && s.children.getLast?.any (·.children.length == 1)))
  return [s]

def selectStatement : Rule Node := do
  .expect openBrace
  return .node .selectStatement (← clauses sub limit (communication sub limit))

/-! ## Declarations of values and types -/

/-- Names behind a comma. -/
def moreNames : Rule (List Node) :=
  .many .anyLine (·.is ",") (fun _ => do return .token (← .token (·.isIdentifier))) limit

/-- `var` names with a type, with values, or with both. -/
def varSpecification (first : Lexeme) : Rule Node := do
  let names := .token first :: (← moreNames limit)
  .read .anyLine (fun l => l.is "=" || l.startsType)
    (fun l => do
      if l.is "=" then
        return .node .specification (names ++ (← operands sub limit .statement))
      else
        let type ← sub (.type .sameLine l)
        .read .sameLine (·.is "=")
          (fun _ => do
            return .node .specification (names ++ type :: (← operands sub limit .statement)))
          (fun _ => .done (.node .specification (names ++ [type]))))
    (fun _ => .refuse none)

/-- `const` names, whose values may be those of the line above. -/
def constSpecification (first : Lexeme) : Rule Node := do
  let names := .token first :: (← moreNames limit)
  .read .sameLine (fun l => l.is "=" || l.startsType)
    (fun l => do
      if l.is "=" then
        return .node .specification (names ++ (← operands sub limit .statement))
      else
        let type ← sub (.type .sameLine l)
        .expect "="
        return .node .specification (names ++ type :: (← operands sub limit .statement)))
    (fun _ => .done (.node .specification names))

/-- The type behind the name and type parameters of a declaration; an equals sign makes an alias. -/
def definedType (before : List Node) : Rule Node :=
  .read .anyLine (fun l => l.is "=" || l.startsType)
    (fun l => do
      let type ← if l.is "=" then sub.type .sameLine else sub (.type .sameLine l)
      return .node .specification (before ++ [type]))
    (fun _ => .refuse none)

/-- Type parameters whose first name and constraint have been read, and the type declared. -/
def parametersThenType (name parameter : Node) : Rule Node := do
  let others ← .read .anyLine (·.is ",")
    (fun _ => typeParameters sub limit false limit)
    (fun _ => do
      .expect "]"
      return [])
  definedType sub (name :: parameter :: others)

/-- The length of an array type, or a constraint that looks like a product (`P *C`), and what
follows. -/
def lengthThenType (name length : Node) : Rule Node := do
  .check length.isOperand
  parametersThenType sub limit name length

/-- A type declared behind `name [`, where the bracket belongs to an array or slice type or to type
parameters.  An identifier followed by a type is a type parameter. -/
def bracketedType (name : Node) : Rule Node :=
  .read .anyLine (fun l => l.is "]" || l.startsTerm)
    (fun l =>
      if l.is "]" then do
        return .node .specification [name, .node .sliceType [← sub.type .sameLine]]
      else if !l.isIdentifier then do lengthThenType sub limit name (← sub (.term .inside l))
      else
        .read .anyLine (fun m => m.isOneOf [",", "["]
            || (startsConstraint m && !m.isOneOf ["(", "*"]))
          (fun m =>
            if m.is "," then do
              let others ← typeParameters sub limit true limit
              definedType sub (name :: .token l :: others)
            else if m.is "[" then do
              let x ← bracketAfterName sub limit .anyLine l
              if x.isKind .parameter then
                let others ← alternatives sub limit .anyLine
                parametersThenType sub limit name (.node .typeParameter (x :: others))
              else lengthThenType sub limit name (← sub (.resume .inside x))
            else do
              let bound ← constraint sub limit .anyLine m
              parametersThenType sub limit name (.node .typeParameter [.token l, bound]))
          (fun _ => do
            lengthThenType sub limit name (← sub (.resume .inside (.token l)))))
    (fun _ => .refuse none)

/-- A declared type behind its name. -/
def typeSpecification (name : Lexeme) : Rule Node :=
  .read .anyLine (·.is "[")
    (fun _ => bracketedType sub limit (.token name))
    (fun _ => definedType sub [.token name])

/-- Specifications in parentheses, each with a line end or semicolon behind it. -/
def specifications (item : Lexeme → Rule Node) : (count : Nat) → Rule (List Node)
  | 0 => .refuse none
  | count + 1 =>
    .read .anyLine (·.isIdentifier)
      (fun name => do
        let s ← item name
        .read .sameLine (·.endsStatement)
          (fun _ => do return s :: (← specifications item count))
          (fun _ => .refuse none))
      (fun _ => do
        .expect ")"
        return [])

/-- One specification, or several in parentheses. -/
def declaration (kind : Node.Kind) (item : Lexeme → Rule Node) : Rule Node :=
  .read .anyLine (fun l => l.isIdentifier || l.is "(")
    (fun l => do
      if l.is "(" then return .node kind (← specifications item limit)
      else return .node kind [← item l])
    (fun _ => .refuse none)

/-! ## Statements -/

/-- A label and the statement it marks.  At the end of a block the statement may be missing. -/
def labelled (name : Node) : Rule Node :=
  .read .anyLine (fun l => l.is ";" || startsStatement l)
    (fun l => do
      let s ← if l.is ";" then .done (.node .empty []) else sub (.statement l)
      return .node .labelled [name, s])
    (fun _ => .done (.node .emptyLabel [name]))

/-- A simple statement or a labelled one, its first term in hand. -/
def simpleOrLabelled (x : Node) : Rule Node := do
  if x.isIdentifier then
    .read .sameLine (·.is ":")
      (fun _ => labelled sub x)
      (fun _ => plain x)
  else plain x
where
  plain (x : Node) : Rule Node := do
    let s ← simpleFrom sub limit .statement false x
    .check !hasGuard s
    return s

/-- A statement by its first token. -/
def statement (first : Lexeme) : Rule Node :=
  match first.text with
  | "var" => declaration limit .varGroup (varSpecification sub limit)
  | "const" => declaration limit .constGroup (constSpecification sub limit)
  | "type" => declaration limit .typeGroup (typeSpecification sub limit)
  | "return" =>
    .read .sameLine (·.startsTerm)
      (fun t => do return .node .returnStatement (← operandsFrom sub limit .statement t))
      (fun _ => .done (.node .returnStatement []))
  | "go" => do return .node .goStatement [← sub.operand .statement]
  | "defer" => do return .node .deferStatement [← sub.operand .statement]
  | "if" => ifStatement sub limit
  | "for" => forStatement sub limit
  | "switch" => switchStatement sub limit
  | "select" => selectStatement sub limit
  | "break" | "continue" =>
    .read .sameLine (·.isIdentifier)
      (fun name => .done (.node .branch [.token name]))
      (fun _ => .done (.node .branch []))
  | "goto" => do return .node .branch [.token (← .token (·.isIdentifier))]
  | "fallthrough" => .done (.node .branch [])
  | _ =>
    if first.is openBrace then sub .block
    else do simpleOrLabelled sub limit (← sub (.term .statement first))

end TestTriage.Go.Grammar
