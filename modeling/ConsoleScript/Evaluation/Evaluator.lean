import ConsoleScript.Evaluation.Declaration

/-!
# Evaluation of trees

A node has a value or none. Nodes are evaluated by recursion on the tree. Only calls of user
functions leave the tree, so they are left to a parameter; it is filled in by recursion on the
number of calls that are still allowed, and every evaluation ends.
-/

namespace ConsoleScript

abbrev Invoke := Overload → List Value → Nat → Eval Value

namespace Node

def isReturning : Node → Bool
  | returning _ _ => true
  | _ => false

mutual

def eval (invoke : Invoke) : Node → Eval (Option Value)
  | literal value _ => return some value
  | .variable name line => do
    let v ← Eval.ofExcept ((← get).scope.get name line)
    return some v.value
  | negation operand line => do
    let value ← Eval.required operand.line (eval invoke operand)
    let entry ← Eval.ofExcept ((← get).registry.resolve negationName [value.type] line)
    return some (← invoke entry [value] line)
  | binary left op right line => do
    let a ← Eval.required left.line (eval invoke left)
    let b ← Eval.required right.line (eval invoke right)
    let entry ← Eval.ofExcept ((← get).registry.resolveOperator op a.type b.type line)
    return some (← invoke entry [a, b] line)
  | assignment (.variable name _) value line => do
    let v ← Eval.ofExcept ((← get).scope.get name line)
    let value ← Eval.required value.line (eval invoke value)
    let fitted ← Eval.ofExcept (v.type.fitDeclared value line)
    let scope ← Eval.ofExcept ((← get).scope.assign name fitted line)
    modify fun s => { s with scope }
    return none
  | assignment _ _ line => throw (.notAssignable line)
  | declaration declared names initializer line => do
    let type ← Eval.ofExcept (declared.resolve line)
    let value ← evalInitializer invoke initializer
    Eval.declareAll type value line names
    return none
  | block statements _ => evalStatements invoke none statements
  | branch condition thenBody elseBody line => do
    match ← Eval.required condition.line (eval invoke condition) with
    | .bool true => eval invoke thenBody
    | .bool false => evalElse invoke elseBody
    | other => throw (.notBoolean other.type line)
  | loop count body line => do
    match ← Eval.required count.line (eval invoke count) with
    | .int n => Eval.times (eval invoke body) none n.toInt.toNat
    | other => throw (.notLoopCount other.type line)
  | print expr _ => do
    let value ← eval invoke expr
    modify (State.write (Value.printed value))
    return none
  | typeOf expr line => do
    let value ← Eval.required line (eval invoke expr)
    return some (.string value.type.name)
  | returning expr _ => eval invoke expr
  | function name returnType params body line => do
    let entry ← Eval.ofExcept (Overload.ofDefinition name returnType params body line)
    let registry ← Eval.ofExcept ((← get).registry.register entry line)
    modify fun s => { s with registry }
    return none
  | call name arguments line => do
    let args ← evalArguments invoke arguments
    let entry ← Eval.ofExcept ((← get).registry.resolve name (args.map Value.type) line)
    return some (← invoke entry args line)
  | noOp _ => return none

def evalInitializer (invoke : Invoke) : Option Node → Eval (Option Value)
  | none => return none
  | some node => some <$> Eval.required node.line (eval invoke node)

def evalElse (invoke : Invoke) : Option Node → Eval (Option Value)
  | none => return none
  | some node => eval invoke node

/-- Evaluates statements in order. Their value is that of the last among them that returns one, or
`result` if none does. -/
def evalStatements (invoke : Invoke) (result : Option Value) : List Node → Eval (Option Value)
  | [] => return result
  | node :: nodes => do
    let value ← eval invoke node
    evalStatements invoke (if node.isReturning then value else result) nodes

def evalArguments (invoke : Invoke) : List Node → Eval (List Value)
  | [] => return []
  | node :: nodes => do
    let value ← Eval.required node.line (eval invoke node)
    return value :: (← evalArguments invoke nodes)

end

end Node

/-- Calls a function where `calls` further calls of user functions are allowed. The body of a user
function sees its parameters and no other variables. -/
def invoke (calls : Nat) : Invoke := fun entry args line =>
  match entry.body, calls with
  | .native f, _ => Eval.ofExcept (f.apply args line)
  | .user _ _, 0 => throw (.callsTooDeep callLimit line)
  | .user params body, calls + 1 => do
    let frame ← Eval.ofExcept (Scope.empty.bind line params entry.params args)
    let result ← Eval.inFrame frame (body.eval (invoke calls))
    Eval.ofExcept (entry.returned result line)

theorem invoke_native {entry : Overload} {f : Builtin} (h : entry.body = .native f) (calls : Nat)
    (args : List Value) (line : Nat) :
    invoke calls entry args line = Eval.ofExcept (f.apply args line) := by
  unfold invoke
  rw [h]

theorem invoke_user_zero {entry : Overload} {params : List String} {body : Node}
    (h : entry.body = .user params body) (args : List Value) (line : Nat) :
    invoke 0 entry args line = throw (.callsTooDeep callLimit line) := by
  unfold invoke
  rw [h]

theorem invoke_user_succ {entry : Overload} {params : List String} {body : Node}
    (h : entry.body = .user params body) (calls : Nat) (args : List Value) (line : Nat) :
    invoke (calls + 1) entry args line = (do
      let frame ← Eval.ofExcept (Scope.empty.bind line params entry.params args)
      let result ← Eval.inFrame frame (body.eval (invoke calls))
      Eval.ofExcept (entry.returned result line)) := by
  rw [invoke.eq_def]
  simp only [h]

namespace Eval

def node (n : Node) : Eval (Option Value) := fun s =>
  n.eval (invoke (callLimit - s.depth)) s

/-- Evaluates the statements of a unit. A statement that fails is logged, and the next is evaluated.
The value of the unit is the last that one of its statements has, or `result`. -/
def statements (result : Option Value) : List Node → StateM State (Option Value)
  | [] => return result
  | n :: nodes => do
    let value ← orLog (node n)
    statements (value <|> result) nodes

/-- Evaluates a tree as a unit. A block at its root is no block of its own. -/
def unit : Node → StateM State (Option Value)
  | .block nodes _ => statements none nodes
  | n => statements none [n]

end Eval

end ConsoleScript
