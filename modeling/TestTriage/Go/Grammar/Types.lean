import TestTriage.Go.Grammar.Goal

/-!
# Rules for types

Names in parameter lists and struct fields come before the type they belong to, and a name may as
well be the type itself.  Which it is shows in the token behind it, and for `a[…]` in the token
behind the bracket: a type there makes it an array type with the name `a`.
-/

namespace TestTriage.Go.Grammar

variable (sub : Reading) (limit : Nat)

/-! ## Named types -/

/-- Type arguments behind their opening bracket. -/
def typeArguments : Rule (List Node) := do
  let arguments ← .listUntil "]" (·.startsType) (fun t => sub (.type .anyLine t)) limit
  .check !arguments.isEmpty
  return arguments

/-- What may follow a type name: type arguments. -/
def typeNameRest (gap : Gap) (name : Node) : Rule Node :=
  .read gap (·.is "[")
    (fun _ => do return .node .index (name :: (← typeArguments sub limit)))
    (fun _ => .done name)

/-- The name behind the dot of a package. -/
def qualified (package : Lexeme) : Rule Node := do
  return .node .selector [.token package, .token (← .token (·.isIdentifier))]

/-- A type that starts with an identifier. -/
def typeName (gap : Gap) (name : Lexeme) : Rule Node := do
  let name ← .read gap (·.is ".") (fun _ => qualified name) (fun _ => .done (.token name))
  typeNameRest sub limit gap name

/-! ## Arrays -/

/-- An array or slice type behind its opening bracket. -/
def arrayType (gap : Gap) : Rule Node :=
  .read .anyLine (·.is "]")
    (fun _ => do return .node .sliceType [← sub.type gap])
    (fun _ => do
      let length ← sub.operand .inside
      .expect "]"
      return .node .arrayType [length, ← sub.type gap])

/-- The rest of `name[…`, which is a named slice or array or a type with arguments. -/
def bracketAfterName (gap : Gap) (name : Lexeme) : Rule Node :=
  .read .anyLine (·.is "]")
    (fun _ => do return .node .parameter [.token name, .node .sliceType [← sub.type gap]])
    (fun _ => do
      let terms ← .listUntil "]" (·.startsTerm) (fun t => sub (.term .inside t)) limit
      let generic : Rule Node := do
        .check (!terms.isEmpty && Node.allTypes terms)
        return .node .index (.token name :: terms)
      match terms with
      | [length] =>
        .read gap (·.startsType)
          (fun t => do
            .check length.isOperand
            return .node .parameter [.token name, .node .arrayType [length, ← sub (.type gap t)]])
          (fun _ => generic)
      | _ => generic)

/-! ## Functions -/

/-- One parameter: a type, perhaps with a name in front. -/
def parameter (first : Lexeme) : Rule Node :=
  if first.is "..." then do return .node .parameter [← sub.type .anyLine]
  else if first.isIdentifier then
    .read .anyLine (fun l => l.isOneOf ["...", ".", "["] || l.startsType)
      (fun l =>
        if l.is "..." then do return .node .parameter [.token first, ← sub.type .anyLine]
        else if l.is "." then do typeNameRest sub limit .anyLine (← qualified first)
        else if l.is "[" then bracketAfterName sub limit .anyLine first
        else do return .node .parameter [.token first, ← sub (.type .anyLine l)])
      (fun _ => .done (.token first))
  else sub (.type .anyLine first)

/-- Parameters behind their opening parenthesis. -/
def parameters : Rule Node := do
  let ps ← .listUntil ")" (fun l => l.is "..." || l.startsType) (parameter sub limit) limit
  return .node .parameters ps

/-- Parameters with both parentheses. -/
def parameterList : Rule Node := do
  .expect "("
  sub .parameters

/-- The result of a function, if it has one: parameters again, or a type without parentheses. -/
def result (gap : Gap) : Rule (List Node) :=
  .read gap (·.startsType)
    (fun l => do return [← if l.is "(" then sub .parameters else sub (.type gap l)])
    (fun _ => .done [])

/-- Parameters and result behind the word `func`. -/
def signature (gap : Gap) : Rule (List Node) := do
  let ps ← parameterList sub
  return ps :: (← result sub gap)

/-! ## Constraints and type parameters -/

/-- A type, or a tilde and a type. -/
def constraintElement (gap : Gap) (first : Lexeme) : Rule Node := do
  if first.is "~" then return .node .element [← sub.type gap] else sub (.type gap first)

def startsConstraint (l : Lexeme) : Bool := l.is "~" || l.startsType

/-- The alternatives behind the first one of a constraint. -/
def alternatives (gap : Gap) : Rule (List Node) :=
  .many gap (·.is "|")
    (fun _ => do constraintElement sub gap (← .token startsConstraint)) limit

/-- A constraint: alternatives parted by bars. -/
def constraint (gap : Gap) (first : Lexeme) : Rule Node := do
  let x ← constraintElement sub gap first
  return .node .element (x :: (← alternatives sub limit gap))

/-- Type parameters up to the closing bracket.  While a name is `pending` its constraint, another
name has to follow. -/
def typeParameters (pending : Bool) : (count : Nat) → Rule (List Node)
  | 0 => .refuse none
  | count + 1 =>
    .read .anyLine (·.isIdentifier)
      (fun name =>
        .read .anyLine startsConstraint
          (fun l => do
            let bound ← constraint sub limit .anyLine l
            let p := Node.node .typeParameter [.token name, bound]
            .read .anyLine (·.is ",")
              (fun _ => do return p :: (← typeParameters false count))
              (fun _ => do .expect "]"; return [p]))
          (fun _ => do
            .expect ","
            return .token name :: (← typeParameters true count)))
      (fun _ => do
        .check !pending
        .expect "]"
        return [])

/-! ## Structs and interfaces -/

/-- Names of fields behind the first comma, and their type. -/
def fieldNames : (count : Nat) → Rule (List Node)
  | 0 => .refuse none
  | count + 1 => do
    let name ← .token (·.isIdentifier)
    .read .anyLine (·.is ",")
      (fun _ => do return .token name :: (← fieldNames count))
      (fun _ => do return [.token name, ← sub.type .sameLine])

/-- A field without its tag. -/
def fieldBody (first : Lexeme) : Rule Node :=
  if first.is "*" then do
    let name ← .token (·.isIdentifier)
    return .node .pointerType [← typeName sub limit .sameLine name]
  else
    .read .sameLine (fun l => l.isOneOf [",", ".", "["] || l.startsType)
      (fun l =>
        if l.is "," then do return .node .field (.token first :: (← fieldNames sub limit))
        else if l.is "." then do typeNameRest sub limit .sameLine (← qualified first)
        else if l.is "[" then bracketAfterName sub limit .sameLine first
        else do return .node .parameter [.token first, ← sub (.type .sameLine l)])
      (fun _ => .done (.token first))

/-- A field, with a tag if there is one. -/
def field (first : Lexeme) : Rule Node := do
  let body ← fieldBody sub limit first
  .read .sameLine (·.kind == .string)
    (fun tag => .done (.node .field [body, .token tag]))
    (fun _ => .done (.node .field [body]))

/-- An element of an interface: a method, or a constraint. -/
def interfaceElement (first : Lexeme) : Rule Node :=
  if first.isIdentifier then
    .read .sameLine (·.is "(")
      (fun _ => do
        let ps ← sub .parameters
        return .node .element (.token first :: ps :: (← result sub .sameLine)))
      (fun _ => do
        let name ← typeName sub limit .sameLine first
        return .node .element (name :: (← alternatives sub limit .sameLine)))
  else constraint sub limit .sameLine first

/-- Members parted by line ends or semicolons, up to the closing brace. -/
def members (fits : Lexeme → Bool) (item : Lexeme → Rule Node) : (count : Nat) → Rule (List Node)
  | 0 => .refuse none
  | count + 1 =>
    .read .anyLine fits
      (fun l => do
        let x ← item l
        .read .sameLine (·.endsStatement)
          (fun _ => do return x :: (← members fits item count))
          (fun _ => do .expect closeBrace; return [x]))
      (fun _ => do .expect closeBrace; return [])

/-! ## Types -/

/-- A type by its first token. -/
def typeFrom (gap : Gap) (first : Lexeme) : Rule Node :=
  if first.isIdentifier then typeName sub limit gap first
  else match first.text with
  | "*" => do return .node .pointerType [← sub.type gap]
  | "(" => do
    let inner ← sub.type .anyLine
    .expect ")"
    return .node .parenType [inner]
  | "[" => arrayType sub gap
  | "map" => do
    .expect "["
    let key ← sub.type .anyLine
    .expect "]"
    return .node .mapType [key, ← sub.type gap]
  | "chan" =>
    .read .anyLine (fun l => l.is "<-" || l.startsType)
      (fun l => do
        if l.is "<-" then
          -- `chan<- T` sends only; `chan <-chan T` cannot be told apart and has the same parts
          return .node .channelType [← sub.type gap]
        else return .node .channelType [← sub (.type gap l)])
      (fun _ => .refuse none)
  | "<-" => do
    .expect "chan"
    return .node .channelType [← sub.type gap]
  | "func" => do return .node .functionType (← signature sub gap)
  | "struct" => do
    .expect openBrace
    return .node .structType
      (← members (fun l => l.isIdentifier || l.is "*") (field sub limit) limit)
  | "interface" => do
    .expect openBrace
    return .node .interfaceType
      (← members startsConstraint (interfaceElement sub limit) limit)
  | _ => .refuse none

end TestTriage.Go.Grammar
