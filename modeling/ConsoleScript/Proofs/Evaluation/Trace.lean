import ConsoleScript.Evaluation.Evaluator

/-!
# The states of an evaluation

An evaluator gives a result and the state in which it ends. Here it is written once more so that it
also lists the states it passes through: the one after every change, and the one in which the body
of a called function starts. `erase_trace` and `erase_tracedInvoke` say that apart from the list
nothing is different.
-/

namespace ConsoleScript

variable {α β : Type}

/-- The state in which an evaluation ends, whether it succeeds or fails. -/
def Eval.after (act : Eval α) (s : State) : State :=
  match act s with
  | .ok _ t => t
  | .error _ t => t

/-- An evaluation with the states that it passes through, in order. -/
def Traced (α : Type) : Type :=
  State → EStateM.Result EvalError State α × List State

namespace Traced

def erase (act : Traced α) : Eval α :=
  fun s => (act s).1

/-- The states that the evaluation passes through when it starts in `s`. -/
def moments (act : Traced α) (s : State) : List State :=
  (act s).2

instance : Monad Traced where
  pure a := fun s => (.ok a s, [])
  bind x f := fun s =>
    match x s with
    | (.ok a t, before) => ((f a t).1, before ++ (f a t).2)
    | (.error e t, before) => (.error e t, before)

def read : Traced State :=
  fun s => (.ok s s, [])

/-- Changes the state. This is the only way to do so within one call. -/
def update (f : State → State) : Traced Unit :=
  fun s => (.ok () (f s), [f s])

def fail (e : EvalError) : Traced α :=
  fun s => (.error e s, [])

def ofExcept (result : Except EvalError α) : Traced α :=
  fun s => (Eval.ofExcept result s, [])

/-- Runs an evaluation in a scope of its own, one call deeper, and then takes the scope back. -/
def inFrame (frame : Scope) (act : Traced α) : Traced α := fun s =>
  let entered : State := { s with scope := frame, depth := s.depth + 1 }
  let call := Eval.inFrame frame act.erase
  (call s, entered :: act.moments entered ++ [call.after s])

def required (line : Nat) (act : Traced (Option Value)) : Traced Value := do
  match ← act with
  | some value => return value
  | none => fail (.missingValue line)

def times (act : Traced (Option Value)) (last : Option Value) : Nat → Traced (Option Value)
  | 0 => return last
  | count + 1 => do times act (← act) count

def declareAll (declared : Option ValueType) (value : Option Value) (line : Nat) :
    List String → Traced Unit
  | [] => return
  | name :: names => do
    match (← read).scope.declareInitial name declared value line with
    | .ok scope => update fun s => { s with scope }
    | .error e => update (State.log e)
    declareAll declared value line names

@[simp] theorem erase_pure (a : α) : (pure a : Traced α).erase = pure a := rfl

@[simp] theorem erase_bind (x : Traced α) (f : α → Traced β) :
    (x >>= f).erase = x.erase >>= fun a => (f a).erase := by
  funext s
  change (match x s with
    | (.ok a t, before) => ((f a t).1, before ++ (f a t).2)
    | (.error e t, before) => (.error e t, before)).1 = EStateM.bind x.erase _ s
  simp only [EStateM.bind, erase]
  rcases x s with ⟨_ | _, before⟩ <;> rfl

theorem bind_of_run_ok {x : Traced α} (f : α → Traced β) {s t : State} {a : α}
    {before : List State} (h : x s = (.ok a t, before)) :
    (x >>= f) s = ((f a t).1, before ++ (f a t).2) := by
  simp only [bind, h]

theorem bind_of_run_error {x : Traced α} (f : α → Traced β) {s t : State} {e : EvalError}
    {before : List State} (h : x s = (.error e t, before)) :
    (x >>= f) s = (.error e t, before) := by
  simp only [bind, h]

@[simp] theorem erase_read : read.erase = get := rfl

@[simp] theorem erase_update (f : State → State) : (update f).erase = modify f := rfl

@[simp] theorem erase_fail (e : EvalError) : (fail e : Traced α).erase = throw e := rfl

@[simp] theorem erase_ofExcept (result : Except EvalError α) :
    (ofExcept result).erase = Eval.ofExcept result := rfl

@[simp] theorem erase_inFrame (frame : Scope) (act : Traced α) :
    (inFrame frame act).erase = Eval.inFrame frame act.erase := rfl

@[simp] theorem erase_required (line : Nat) (act : Traced (Option Value)) :
    (required line act).erase = Eval.required line act.erase := by
  rw [required, Eval.required, erase_bind]
  congr 1
  funext value
  cases value <;> rfl

@[simp] theorem erase_times (act : Traced (Option Value)) (last : Option Value) (count : Nat) :
    (times act last count).erase = Eval.times act.erase last count := by
  induction count generalizing last with
  | zero => rfl
  | succ count ih =>
    rw [times, Eval.times, erase_bind]
    congr 1
    funext value
    exact ih value

@[simp] theorem erase_declareAll (declared : Option ValueType) (value : Option Value) (line : Nat)
    (names : List String) :
    (declareAll declared value line names).erase = Eval.declareAll declared value line names := by
  induction names with
  | nil => rfl
  | cons name names ih =>
    rw [declareAll, Eval.declareAll, erase_bind, erase_read]
    congr 1
    funext s
    cases s.scope.declareInitial name declared value line <;> simp [ih]

end Traced

abbrev TracedInvoke := Overload → List Value → Nat → Traced Value

def TracedInvoke.erase (invoke : TracedInvoke) : Invoke :=
  fun entry args line => (invoke entry args line).erase

namespace Node

open Traced

mutual

def trace (invoke : TracedInvoke) : Node → Traced (Option Value)
  | literal value _ => return some value
  | .variable name line => do
    let v ← ofExcept ((← read).scope.get name line)
    return some v.value
  | negation operand line => do
    let value ← required operand.line (trace invoke operand)
    let entry ← ofExcept ((← read).registry.resolve negationName [value.type] line)
    return some (← invoke entry [value] line)
  | binary left op right line => do
    let a ← required left.line (trace invoke left)
    let b ← required right.line (trace invoke right)
    let entry ← ofExcept ((← read).registry.resolveOperator op a.type b.type line)
    return some (← invoke entry [a, b] line)
  | assignment (.variable name _) value line => do
    let v ← ofExcept ((← read).scope.get name line)
    let value ← required value.line (trace invoke value)
    let fitted ← ofExcept (v.type.fitDeclared value line)
    let scope ← ofExcept ((← read).scope.assign name fitted line)
    update fun s => { s with scope }
    return none
  | assignment _ _ line => fail (.notAssignable line)
  | declaration declared names initializer line => do
    let type ← ofExcept (declared.resolve line)
    let value ← traceInitializer invoke initializer
    declareAll type value line names
    return none
  | block statements _ => traceStatements invoke none statements
  | branch condition thenBody elseBody line => do
    match ← required condition.line (trace invoke condition) with
    | .bool true => trace invoke thenBody
    | .bool false => traceElse invoke elseBody
    | other => fail (.notBoolean other.type line)
  | loop count body line => do
    match ← required count.line (trace invoke count) with
    | .int n => times (trace invoke body) none n.toInt.toNat
    | other => fail (.notLoopCount other.type line)
  | print expr _ => do
    let value ← trace invoke expr
    update (State.write (Value.printed value))
    return none
  | typeOf expr line => do
    let value ← required line (trace invoke expr)
    return some (.string value.type.name)
  | returning expr _ => trace invoke expr
  | function name returnType params body line => do
    let entry ← ofExcept (Overload.ofDefinition name returnType params body line)
    let registry ← ofExcept ((← read).registry.register entry line)
    update fun s => { s with registry }
    return none
  | call name arguments line => do
    let args ← traceArguments invoke arguments
    let entry ← ofExcept ((← read).registry.resolve name (args.map Value.type) line)
    return some (← invoke entry args line)
  | noOp _ => return none

def traceInitializer (invoke : TracedInvoke) : Option Node → Traced (Option Value)
  | none => return none
  | some node => do return some (← required node.line (trace invoke node))

def traceElse (invoke : TracedInvoke) : Option Node → Traced (Option Value)
  | none => return none
  | some node => trace invoke node

def traceStatements (invoke : TracedInvoke) (result : Option Value) :
    List Node → Traced (Option Value)
  | [] => return result
  | node :: nodes => do
    let value ← trace invoke node
    traceStatements invoke (if node.isReturning then value else result) nodes

def traceArguments (invoke : TracedInvoke) : List Node → Traced (List Value)
  | [] => return []
  | node :: nodes => do
    let value ← required node.line (trace invoke node)
    return value :: (← traceArguments invoke nodes)

end

end Node

/-- Calls a function as `invoke` does and lists the states of its body. -/
def tracedInvoke (calls : Nat) : TracedInvoke := fun entry args line =>
  match entry.body, calls with
  | .native f, _ => Traced.ofExcept (f.apply args line)
  | .user _ _, 0 => Traced.fail (.callsTooDeep callLimit line)
  | .user params body, calls + 1 => do
    let frame ← Traced.ofExcept (Scope.empty.bind line params entry.params args)
    let result ← Traced.inFrame frame (body.trace (tracedInvoke calls))
    Traced.ofExcept (entry.returned result line)

namespace Node

mutual

theorem erase_trace (invoke : TracedInvoke) (n : Node) :
    (n.trace invoke).erase = n.eval invoke.erase := by
  match n with
  | literal _ _ | .variable _ _ | noOp _ | function _ _ _ _ _ => simp [trace, eval]
  | negation operand line => simp [trace, eval, erase_trace invoke operand, TracedInvoke.erase]
  | binary left op right line =>
    simp [trace, eval, erase_trace invoke left, erase_trace invoke right, TracedInvoke.erase]
  | assignment target value line =>
    cases target <;> simp [trace, eval, erase_trace invoke value]
  | declaration declared names initializer line =>
    simp [trace, eval, erase_traceInitializer invoke initializer]
  | block statements line => simp [trace, eval, erase_traceStatements invoke none statements]
  | branch condition thenBody elseBody line =>
    rw [trace, eval, Traced.erase_bind, Traced.erase_required, erase_trace invoke condition]
    congr 1
    funext value
    cases value with
    | bool b =>
      cases b with
      | true => exact erase_trace invoke thenBody
      | false => exact erase_traceElse invoke elseBody
    | _ => rfl
  | loop count body line =>
    rw [trace, eval, Traced.erase_bind, Traced.erase_required, erase_trace invoke count]
    congr 1
    funext value
    cases value with
    | int n => exact (Traced.erase_times _ _ _).trans (by rw [erase_trace invoke body])
    | _ => rfl
  | print expr line => simp [trace, eval, erase_trace invoke expr]
  | typeOf expr line => simp [trace, eval, erase_trace invoke expr]
  | returning expr line => rw [trace, eval, erase_trace invoke expr]
  | call name arguments line =>
    simp [trace, eval, erase_traceArguments invoke arguments, TracedInvoke.erase]

theorem erase_traceInitializer (invoke : TracedInvoke) (initializer : Option Node) :
    (traceInitializer invoke initializer).erase = evalInitializer invoke.erase initializer := by
  match initializer with
  | none => simp [traceInitializer, evalInitializer]
  | some node => simp [traceInitializer, evalInitializer, erase_trace invoke node]

theorem erase_traceElse (invoke : TracedInvoke) (elseBody : Option Node) :
    (traceElse invoke elseBody).erase = evalElse invoke.erase elseBody := by
  match elseBody with
  | none => simp [traceElse, evalElse]
  | some node => simp [traceElse, evalElse, erase_trace invoke node]

theorem erase_traceStatements (invoke : TracedInvoke) (result : Option Value)
    (nodes : List Node) :
    (traceStatements invoke result nodes).erase = evalStatements invoke.erase result nodes := by
  match nodes with
  | [] => simp [traceStatements, evalStatements]
  | node :: nodes =>
    rw [traceStatements, evalStatements, Traced.erase_bind, erase_trace invoke node]
    congr 1
    funext value
    exact erase_traceStatements invoke _ nodes

theorem erase_traceArguments (invoke : TracedInvoke) (nodes : List Node) :
    (traceArguments invoke nodes).erase = evalArguments invoke.erase nodes := by
  match nodes with
  | [] => simp [traceArguments, evalArguments]
  | node :: nodes =>
    simp [traceArguments, evalArguments, erase_trace invoke node, erase_traceArguments invoke nodes]

end

end Node

theorem erase_tracedInvoke (calls : Nat) : (tracedInvoke calls).erase = invoke calls := by
  induction calls with
  | zero =>
    funext entry args line
    unfold TracedInvoke.erase tracedInvoke invoke
    cases entry.body <;> rfl
  | succ calls ih =>
    funext entry args line
    unfold TracedInvoke.erase tracedInvoke invoke
    cases entry.body with
    | native f => rfl
    | user params body => simp [Node.erase_trace, ih]

namespace Traced

/-- Evaluates a node as `Eval.node` does. -/
def node (n : Node) : Traced (Option Value) := fun s =>
  n.trace (tracedInvoke (callLimit - s.depth)) s

@[simp] theorem erase_node (n : Node) : (node n).erase = Eval.node n := by
  funext s
  change (n.trace (tracedInvoke (callLimit - s.depth))).erase s = _
  rw [Node.erase_trace, erase_tracedInvoke]
  rfl

/-- The states that the statements of a unit pass through. -/
def statementsMoments : List Node → State → List State
  | [], _ => []
  | n :: nodes, s =>
    let next := (Eval.orLog (Eval.node n) s).2
    (node n).moments s ++ next :: statementsMoments nodes next

def unitMoments : Node → State → List State
  | .block nodes _ => statementsMoments nodes
  | n => statementsMoments [n]

end Traced

end ConsoleScript
