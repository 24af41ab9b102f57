import ConsoleScript.Proofs.Syntax.Loops
import ConsoleScript.Proofs.Token.Progress
import Mathlib.Logic.Function.Iterate

/-!
# The grammar as a program

A parser as a machine. What it does is a script of single instructions, in which procedures call
each other by name and loops go round. Whether it may go down one more level is read off the window.
Nothing in a script counts down, neither the levels that are left nor the tokens that a loop has to
take, so the machine might as well go on for ever.
-/

namespace ConsoleScript

open Grammar (Tier)

variable {σ α β γ : Type}

/-- The parts of the grammar that call each other. -/
inductive Procedure where
  | expression
  | chain (tier : Tier)
  | operand (tier : Tier)
  | fold (tier : Tier) (left : Node)
  | unary
  | statement
  | branch (line : Nat)

/-- What a parser does on one level. -/
inductive Instruction (σ : Type) : Type → Type where
  | look : Instruction σ (Window σ Kind)
  | advance : Instruction σ (Token Kind)
  | consume (kind : Kind) : Instruction σ (Token Kind)
  | peek : Instruction σ (Token Kind)
  | identifier : Instruction σ String

def Instruction.run [TokenSource σ Kind] : Instruction σ α → Parse σ Kind α
  | look => get
  | advance => Parse.advance
  | consume kind => Parse.consume kind
  | peek => Parse.peek
  | identifier => Grammar.identifier

/-- What is left to be done, after which there is a result. -/
inductive Script (σ : Type) : Type → Type 1 where
  | done {α : Type} (a : α) : Script σ α
  | fail {α : Type} (e : ParseError) : Script σ α
  | act {α β : Type} (i : Instruction σ β) (k : β → Script σ α) : Script σ α
  | enter {α : Type} (k : Script σ α) : Script σ α
  | leave {α : Type} (k : Script σ α) : Script σ α
  /-- Goes one level down, on which a part is nested. -/
  | opening {α : Type} (k : Script σ α) : Script σ α
  /-- Comes up from a nested part. -/
  | closing {α : Type} (k : Script σ α) : Script σ α
  | run {α : Type} (p : Procedure) (k : Node → Script σ α) : Script σ α
  /-- Goes round until a round gives a result. -/
  | loop {α β γ : Type} (round : β → Script σ (β ⊕ γ)) (b : β) (k : γ → Script σ α) : Script σ α

def Procedure.script (p : Procedure) : Script σ Node :=
  .run p .done

namespace Script

protected def bind : Script σ α → (α → Script σ β) → Script σ β
  | done a, f => f a
  | fail e, _ => fail e
  | act i k, f => act i fun x => (k x).bind f
  | enter k, f => enter (k.bind f)
  | leave k, f => leave (k.bind f)
  | opening k, f => opening (k.bind f)
  | closing k, f => closing (k.bind f)
  | run p k, f => run p fun n => (k n).bind f
  | loop round b k, f => loop round b fun c => (k c).bind f

instance : Monad (Script σ) where
  pure := done
  bind := Script.bind

/-! ### The parts of the grammar -/

def look : Script σ (Window σ Kind) :=
  act .look done

def advance : Script σ (Token Kind) :=
  act .advance done

def consume (kind : Kind) : Script σ (Token Kind) :=
  act (.consume kind) done

def peek : Script σ (Token Kind) :=
  act .peek done

def identifier : Script σ String :=
  act .identifier done

def isAt (kind : Kind) : Script σ Bool := do
  return (← look).isAt kind

def unexpected : Script σ α := do
  fail (← look).unexpected

/-- Runs a part one level down. A failure comes up through all parts that it is nested in. -/
def nested (p : Script σ α) : Script σ α :=
  opening do
    let a ← p
    closing (done a)

/-- Runs a part one level down and comes up where it succeeds. -/
def counted (p : Script σ α) : Script σ α :=
  enter do
    let a ← p
    leave (done a)

def iterate (round : β → Script σ (β ⊕ γ)) (b : β) : Script σ γ :=
  loop round b done

def commaStep (item : Script σ α) (closing : Kind) (items : List α) :
    Script σ (List α ⊕ List α) := do
  let items := (← item) :: items
  if ← isAt .comma then
    let _ ← advance
    return .inl items
  else if ← isAt closing then
    let _ ← advance
    return .inr items.reverse
  else unexpected

def commaSeparated (item : Script σ α) (closing : Kind) : Script σ (List α) := do
  if ← isAt closing then
    let _ ← advance
    return []
  else iterate (commaStep item closing) []

def call (name : String) (line : Nat) : Script σ Node := do
  let _ ← consume .leftParen
  return .call name (← commaSeparated Procedure.expression.script .rightParen) line

def primary : Script σ Node := do
  let t := (← look).current
  match t.kind with
  | .identifier =>
    let follower ← peek
    let name ← identifier
    if follower.kind = .leftParen then call name t.line
    else return .variable name t.line
  | .leftParen =>
    let _ ← advance
    let inner ← Procedure.expression.script
    let _ ← consume .rightParen
    return inner
  | _ =>
    match Grammar.literal? t with
    | some value =>
      let _ ← advance
      return .literal value t.line
    | none => unexpected

def statementsStep (closing : Kind) (nodes : List Node) : Script σ (List Node ⊕ List Node) := do
  if ← isAt .semicolon then
    let _ ← advance
    return .inl nodes
  else if ← isAt closing then return .inr nodes.reverse
  else
    let node ← Procedure.statement.script
    let w ← look
    let separated := w.isAt .semicolon || w.isAt closing ||
      (w.previous = some .rightBrace && !node.isNoOp)
    if separated then return .inl (node :: nodes) else unexpected

def statements (closing : Kind) : Script σ (List Node) :=
  iterate (statementsStep closing) []

def block : Script σ Node := do
  let line := (← look).line
  let _ ← consume .leftBrace
  let nodes ← statements .rightBrace
  let _ ← consume .rightBrace
  return .block nodes line

def namesStep (names : List String) : Script σ (List String ⊕ List String) := do
  let names := (← identifier) :: names
  if ← isAt .comma then
    let _ ← advance
    return .inl names
  else return .inr names.reverse

def declaration (declared : DeclaredType) (line : Nat) : Script σ Node := do
  let names ← iterate namesStep []
  if ← isAt .assign then
    let _ ← advance
    return .declaration declared names (some (← Procedure.expression.script)) line
  else if declared = .inferred then fail (.missingInitializer names line)
  else return .declaration declared names none line

def identifierLed : Script σ Node := do
  let line := (← look).line
  let name ← identifier
  match (← look).current.kind with
  | .leftParen => call name line
  | .assign =>
    let _ ← advance
    return .assignment (.variable name line) (← Procedure.expression.script) line
  | .identifier => declaration (.named name) line
  | _ => return .noOp line

def parameter : Script σ Parameter := do
  let typeName ← identifier
  let name ← identifier
  return ⟨typeName, name⟩

def functionBody (returnType : String) : Script σ Node := do
  let w ← look
  if w.isAt .leftBrace then block
  else if returnType ≠ "void" && !w.isAt .return then
    return .block [.returning (← Procedure.expression.script) w.line] w.line
  else return .block [← Procedure.statement.script] w.line

def function : Script σ Node := do
  let line := (← look).line
  let _ ← consume .func
  let returnType ← identifier
  let name ← identifier
  let _ ← consume .leftParen
  let params ← commaSeparated parameter .rightParen
  return .function name returnType params (← functionBody returnType) line

def statement : Script σ Node := do
  let line := (← look).line
  match (← look).current.kind with
  | .leftBrace => block
  | .var =>
    let _ ← advance
    declaration .inferred line
  | .identifier => identifierLed
  | .func => function
  | .typeOf =>
    let _ ← advance
    let _ ← consume .leftParen
    let expr ← Procedure.expression.script
    let _ ← consume .rightParen
    return .typeOf expr line
  | .return =>
    let _ ← advance
    return .returning (← Procedure.expression.script) line
  | .if =>
    let _ ← advance
    (Procedure.branch line).script
  | .loop =>
    let _ ← advance
    let count ← Procedure.expression.script
    return .loop count (← Procedure.statement.script) line
  | .print =>
    let _ ← advance
    return .print (← Procedure.expression.script) line
  | .null | .integer | .float | .string | .true | .false | .leftParen | .minus =>
    Procedure.expression.script
  | _ => return .noOp line

def branch (line : Nat) : Script σ Node := do
  let _ ← consume .leftParen
  let condition ← Procedure.expression.script
  let _ ← consume .rightParen
  let thenBody ← Procedure.statement.script
  if ← isAt .else then
    let _ ← advance
    let elseLine := (← look).line
    if ← isAt .if then
      let _ ← advance
      return .branch condition thenBody (← nested (Procedure.branch elseLine).script) line
    else return .branch condition thenBody (← Procedure.statement.script) line
  else return .branch condition thenBody none line

def unit : Script σ Node := do
  let line := (← look).line
  let nodes ← statements .endOfText
  let _ ← consume .endOfText
  return .block nodes line

end Script

open Script in
def Procedure.body : Procedure → Script σ Node
  | expression => nested (chain .sum).script
  | chain tier => do
    let first ← (operand tier).script
    (fold tier first).script
  | operand .sum => (chain .product).script
  | operand .product => unary.script
  | fold tier left => do
    let t := (← look).current
    match tier.operator? t.kind with
    | none => return left
    | some op => counted do
      let _ ← advance
      let right ← (operand tier).script
      (fold tier (.binary left op right t.line)).script
  | unary => do
    let t := (← look).current
    if t.kind = .minus then
      let _ ← advance
      return .negation (← nested unary.script) t.line
    else primary
  | statement => nested Script.statement
  | branch line => Script.branch line

/-! ### The machine -/

variable [TokenSource σ Kind]

structure Config (σ α : Type) : Type 1 where
  script : Script σ α
  /-- The number of parts in progress that are nested in others. -/
  opened : Nat
  window : Window σ Kind

namespace Config

/-- The machine when a part of the parser has come to its end. -/
def settle (k : β → Script σ α) (opened : Nat) :
    EStateM.Result ParseError (Window σ Kind) β → Config σ α
  | .ok b w => ⟨k b, opened, w⟩
  | .error e w => ⟨.fail e, opened, w⟩

/-- One step. A failure comes up through the nested parts one by one. A machine that is done, or has
failed and come up, stays as it is. -/
def step (c : Config σ α) : Config σ α :=
  match c.script, c.opened with
  | .done _, _ | .fail _, 0 => c
  | .fail e, opened + 1 => ⟨.fail e, opened, c.window.leave 1⟩
  | .act i k, opened => settle k opened (i.run c.window)
  | .enter k, opened => settle (fun _ => k) opened (Parse.enter c.window)
  | .leave k, opened => ⟨k, opened, c.window.leave 1⟩
  | .opening k, opened =>
    match Parse.enter c.window with
    | .ok _ w => ⟨k, opened + 1, w⟩
    | .error e w => ⟨.fail e, opened, w⟩
  | .closing k, opened => ⟨k, opened - 1, c.window.leave 1⟩
  | .run p k, opened => ⟨p.body >>= k, opened, c.window⟩
  | .loop round b k, opened => ⟨round b >>= Sum.elim (.loop round · k) k, opened, c.window⟩

/-- What the machine has come to, if it has come to an end. -/
def result? (c : Config σ α) : Option (Except ParseError α) :=
  match c.script, c.opened with
  | .done a, _ => some (.ok a)
  | .fail e, 0 => some (.error e)
  | _, _ => none

/-- The number of levels that the next step leaves. -/
def leaves (c : Config σ α) : Nat :=
  match c.script, c.opened with
  | .fail _, _ + 1 | .leave _, _ | .closing _, _ => 1
  | _, _ => 0

/-- The one machine turns into the other after some number of steps. -/
def Reaches (c c' : Config σ α) : Prop :=
  ∃ n, step^[n] c = c'

end Config

end ConsoleScript
