import ConsoleScript.Syntax.Expression

/-!
# The grammar of statements

    unit        := statements end
    statements  := ";"* (statement (";"+ | after a block))*
    statement   := block | "var" declaration | call | identifier "=" expression
                 | identifier declaration | function | "typeof" "(" expression ")"
                 | "return" expression | "if" branch | "loop" expression statement
                 | "print" expression | expression | identifier | nothing
    block       := "{" statements "}"
    declaration := identifier ("," identifier)* ("=" expression)?
    function    := "func" identifier identifier "(" (parameter ("," parameter)*)? ")" body
    parameter   := identifier identifier
    body        := block | expression | statement
    branch      := "(" expression ")" statement ("else" "if" branch | "else" statement)?

The first token of a statement selects its rule. A lone identifier, and a token that starts no
statement, give an empty statement; in the second case nothing is taken, and what follows the
statement decides whether the token may stand there.
-/

namespace ConsoleScript.Grammar

open Parse

variable {σ : Type} [TokenSource σ Kind]

/-- Takes statements up to the closing token, which is left to be taken. Statements have semicolons
between them, but none is needed after one that ends in a brace. -/
def statements (statement : Parse σ Kind Node) (closing : Kind) : Parse σ Kind (List Node) :=
  iterate (fun done => do
    if ← isAt .semicolon then
      let _ ← advance
      return .inl done
    else if ← isAt closing then return .inr done.reverse
    else
      let node ← statement
      let w ← get
      let separated := w.isAt .semicolon || w.isAt closing ||
        (w.previous = some .rightBrace && !node.isNoOp)
      if separated then return .inl (node :: done) else unexpected) []

def block (statement : Parse σ Kind Node) : Parse σ Kind Node := do
  let line := (← get).line
  let _ ← consume .leftBrace
  let nodes ← statements statement .rightBrace
  let _ ← consume .rightBrace
  return .block nodes line

def names : Parse σ Kind (List String) :=
  iterate (fun names => do
    let names := (← identifier) :: names
    if ← isAt .comma then
      let _ ← advance
      return .inl names
    else return .inr names.reverse) []

/-- The variables of a declaration and their value, the type having been taken. Without a type there
has to be a value to infer it from. -/
def declaration (expression : Parse σ Kind Node) (declared : DeclaredType) (line : Nat) :
    Parse σ Kind Node := do
  let names ← names
  if ← isAt .assign then
    let _ ← advance
    return .declaration declared names (some (← expression)) line
  else if declared = .inferred then throw (.missingInitializer names line)
  else return .declaration declared names none line

/-- A statement that starts with an identifier. The token behind the identifier selects its rule. -/
def identifierLed (expression : Parse σ Kind Node) : Parse σ Kind Node := do
  let line := (← get).line
  let name ← identifier
  match (← get).current.kind with
  | .leftParen => call expression name line
  | .assign =>
    let _ ← advance
    return .assignment (.variable name line) (← expression) line
  | .identifier => declaration expression (.named name) line
  | _ => return .noOp line

def parameter : Parse σ Kind Parameter := do
  let typeName ← identifier
  let name ← identifier
  return ⟨typeName, name⟩

/-- The body of a function, always given as a block. An expression that is the body of a function
with a result is returned. -/
def functionBody (expression statement : Parse σ Kind Node) (returnType : String) :
    Parse σ Kind Node := do
  let w ← get
  if w.isAt .leftBrace then block statement
  else if returnType ≠ "void" && !w.isAt .return then
    return .block [.returning (← expression) w.line] w.line
  else return .block [← statement] w.line

def function (expression statement : Parse σ Kind Node) : Parse σ Kind Node := do
  let line := (← get).line
  let _ ← consume .func
  let returnType ← identifier
  let name ← identifier
  let _ ← consume .leftParen
  let params ← commaSeparated parameter .rightParen
  return .function name returnType params (← functionBody expression statement returnType) line

mutual

def statement (levels : Nat) : Parse σ Kind Node :=
  match levels with
  | 0 => tooDeep
  | levels + 1 => nested do
    let line := (← get).line
    match (← get).current.kind with
    | .leftBrace => block (statement levels)
    | .var =>
      let _ ← advance
      declaration (expression levels) .inferred line
    | .identifier => identifierLed (expression levels)
    | .func => function (expression levels) (statement levels)
    | .typeOf =>
      let _ ← advance
      let _ ← consume .leftParen
      let expr ← expression levels
      let _ ← consume .rightParen
      return .typeOf expr line
    | .return =>
      let _ ← advance
      return .returning (← expression levels) line
    | .if =>
      let _ ← advance
      branch levels line
    | .loop =>
      let _ ← advance
      let count ← expression levels
      return .loop count (← statement levels) line
    | .print =>
      let _ ← advance
      return .print (← expression levels) line
    | .null | .integer | .float | .string | .true | .false | .leftParen | .minus =>
      expression levels
    | _ => return .noOp line
termination_by 2 * levels

def branch (levels line : Nat) : Parse σ Kind Node := do
  let _ ← consume .leftParen
  let condition ← expression levels
  let _ ← consume .rightParen
  let thenBody ← statement levels
  if ← isAt .else then
    let _ ← advance
    let elseLine := (← get).line
    if ← isAt .if then
      let _ ← advance
      match levels with
      | 0 => tooDeep
      | levels + 1 => return .branch condition thenBody (← nested (branch levels elseLine)) line
    else return .branch condition thenBody (← statement levels) line
  else return .branch condition thenBody none line
termination_by 2 * levels + 1

end

def unit : Parse σ Kind Node := do
  let line := (← get).line
  let nodes ← statements (statement nestingLimit) .endOfText
  let _ ← consume .endOfText
  return .block nodes line

def parseFrom (source : σ) : Except ParseError Node := do
  let w ← Window.start source
  match unit w with
  | .ok tree _ => .ok tree
  | .error e _ => .error e

theorem parseFrom_of_ok {source after : σ} {t : Token Kind} {tree : Node} {w : Window σ Kind}
    (hnext : TokenSource.next source = .ok t after) (h : unit ⟨after, t, none, 0⟩ = .ok tree w) :
    parseFrom source = .ok tree := by
  simp only [parseFrom, Window.start, hnext, bind, Except.bind, h]

theorem parseFrom_of_error {source after : σ} {t : Token Kind} {e : ParseError}
    {w : Window σ Kind} (hnext : TokenSource.next source = .ok t after)
    (h : unit ⟨after, t, none, 0⟩ = .error e w) : parseFrom source = .error e := by
  simp only [parseFrom, Window.start, hnext, bind, Except.bind, h]

end Grammar

def parse (rules : RuleSet Kind) (text : String) : Except ParseError Node :=
  Grammar.parseFrom (Lexer.start rules text)

end ConsoleScript
