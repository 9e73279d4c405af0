import TestTriage.Go.Grammar.Statements

/-!
# Rules for the top level of a file

The top level holds package clauses, imports, functions, methods and any statement, in any order.
The word `func` opens a function, a method or a statement that begins with a function literal;
behind its first parameters an identifier with a parenthesis makes it a method.
-/

namespace TestTriage.Go.Grammar

variable (sub : Reading) (limit : Nat)

/-! ## Imports -/

def startsImport (l : Lexeme) : Bool := l.kind == .string || l.isIdentifier || l.is "."

/-- An imported path, with a name in front if there is one. -/
def importPath (first : Lexeme) : Rule Node := do
  if first.kind == .string then return .token first
  else return .node .specification [.token first, .token (← .token (·.kind == .string))]

/-- Imported paths in parentheses, parted by line ends or semicolons. -/
def importPaths : (count : Nat) → Rule (List Node)
  | 0 => .refuse none
  | count + 1 =>
    .read .anyLine startsImport
      (fun l => do
        let path ← importPath l
        .read .sameLine (·.endsStatement)
          (fun _ => do return path :: (← importPaths count))
          (fun _ => do
            .expect ")"
            return [path]))
      (fun _ => do
        .expect ")"
        return [])

def importDeclaration : Rule Node :=
  .read .anyLine (fun l => startsImport l || l.is "(")
    (fun l => do
      if l.is "(" then return .node .importDeclaration (← importPaths limit)
      else return .node .importDeclaration [← importPath l])
    (fun _ => .refuse none)

/-! ## Functions -/

/-- The body of a function, if it has one.  It stands on the line of the result. -/
def body : Rule (List Node) :=
  .read .sameLine (·.is openBrace) (fun _ => do return [← sub .block]) (fun _ => .done [])

/-- A function behind its name. -/
def function (name : Lexeme) : Rule Node := do
  let types ← .read .anyLine (·.is "[")
    (fun _ => do
      let types ← typeParameters sub limit false limit
      .check !types.isEmpty
      return types)
    (fun _ => .done [])
  let parts ← signature sub .sameLine
  return .node .function (.token name :: types ++ parts ++ (← body sub))

/-- A method behind the parenthesis that opens its parameters. -/
def method (receiver : Node) (name : Lexeme) : Rule Node := do
  let ps ← sub .parameters
  let rs ← result sub .sameLine
  return .node .method (.token name :: receiver :: ps :: rs ++ (← body sub))

/-- A statement that begins with a function literal, whose parameters and result have been read. -/
def literalStatement (parts : List Node) : Rule Node := do
  .expect openBrace
  let literal := Node.node .functionLiteral (parts ++ [← sub .block])
  simpleOrLabelled sub limit (← sub (.resume .statement literal))

/-- A method, or a statement that begins with a function literal, behind the first parameters. -/
def methodOrLiteral (first : Node) : Rule Node :=
  .read .anyLine (·.startsType)
    (fun l =>
      if l.isIdentifier then
        .read .anyLine (·.is "(")
          (fun _ => method sub first l)
          (fun _ => do literalStatement sub limit [first, ← typeName sub limit .anyLine l])
      else do
        let r ← if l.is "(" then sub .parameters else sub (.type .anyLine l)
        literalStatement sub limit [first, r])
    (fun _ => literalStatement sub limit [first])

/-- What the word `func` opens. -/
def functionItem : Rule Node :=
  .read .anyLine (fun l => l.isIdentifier || l.is "(")
    (fun l =>
      if l.is "(" then do methodOrLiteral sub limit (← sub .parameters)
      else function sub limit l)
    (fun _ => .refuse none)

/-- An item of the top level by its first token. -/
def item (first : Lexeme) : Rule Node :=
  match first.text with
  | "package" => do return .node .packageClause [.token (← .token (·.isIdentifier))]
  | "import" => importDeclaration limit
  | "func" => functionItem sub limit
  | _ => do
    .check (startsStatement first)
    let s ← sub (.statement first)
    .check !s.isKind .emptyLabel
    return s

end TestTriage.Go.Grammar
