import ConsoleScript.Evaluation.Evaluator
import ConsoleScript.Proofs.Mirroring

/-!
# Other accounts of an evaluation

An evaluation reads the scope, the registry and the depth of its state. It never looks at the log or
at the output, to which it only adds, and it does nothing with the lines of a tree but to report
failures for them. So it goes the same way if the lines are numbered otherwise and if there was
something in the log and in the output before. `retells_node` says this for all nodes at once.
-/

namespace ConsoleScript

mutual

/-- The tree with its lines renumbered. -/
def Node.relined (f : Nat → Nat) : Node → Node
  | .literal value line => .literal value (f line)
  | .variable name line => .variable name (f line)
  | .negation operand line => .negation (operand.relined f) (f line)
  | .binary left op right line => .binary (left.relined f) op (right.relined f) (f line)
  | .assignment target value line => .assignment (target.relined f) (value.relined f) (f line)
  | .declaration declared names initializer line =>
    .declaration declared names (relinedOption f initializer) (f line)
  | .block statements line => .block (relinedNodes f statements) (f line)
  | .branch condition thenBody elseBody line =>
    .branch (condition.relined f) (thenBody.relined f) (relinedOption f elseBody) (f line)
  | .loop count body line => .loop (count.relined f) (body.relined f) (f line)
  | .print expr line => .print (expr.relined f) (f line)
  | .typeOf expr line => .typeOf (expr.relined f) (f line)
  | .returning expr line => .returning (expr.relined f) (f line)
  | .function name returnType params body line =>
    .function name returnType params (body.relined f) (f line)
  | .call name arguments line => .call name (relinedNodes f arguments) (f line)
  | .noOp line => .noOp (f line)

def relinedOption (f : Nat → Nat) : Option Node → Option Node
  | none => none
  | some n => some (n.relined f)

def relinedNodes (f : Nat → Nat) : List Node → List Node
  | [] => []
  | n :: ns => n.relined f :: relinedNodes f ns

end

def EvalError.relined (f : Nat → Nat) : EvalError → EvalError
  | unknownVariable name line => unknownVariable name (f line)
  | alreadyDeclared name line => alreadyDeclared name (f line)
  | cannotInfer name line => cannotInfer name (f line)
  | unknownType name line => unknownType name (f line)
  | invalidType type line => invalidType type (f line)
  | typeMismatch expected found line => typeMismatch expected found (f line)
  | noOverload name types line => noOverload name types (f line)
  | alreadyDefined name types line => alreadyDefined name types (f line)
  | returnMismatch name expected found line => returnMismatch name expected found (f line)
  | notBoolean found line => notBoolean found (f line)
  | notLoopCount found line => notLoopCount found (f line)
  | notAssignable line => notAssignable (f line)
  | missingValue line => missingValue (f line)
  | operands cause line => operands cause (f line)
  | divisionByZero line => divisionByZero (f line)
  | overflow line => overflow (f line)
  | inexactFloat line => inexactFloat (f line)
  | stringTooLong limit line => stringTooLong limit (f line)
  | callsTooDeep limit line => callsTooDeep limit (f line)

def FunctionBody.relined (f : Nat → Nat) : FunctionBody → FunctionBody
  | native g => native g
  | user params body => user params (body.relined f)

def Overload.relined (f : Nat → Nat) (entry : Overload) : Overload :=
  { entry with body := entry.body.relined f }

def Registry.relined (f : Nat → Nat) (r : Registry) : Registry :=
  ⟨r.entries.map (Overload.relined f)⟩

@[simp] theorem Node.line_relined (f : Nat → Nat) (n : Node) : (n.relined f).line = f n.line := by
  cases n <;> rfl

@[simp] theorem Node.isReturning_relined (f : Nat → Nat) (n : Node) :
    (n.relined f).isReturning = n.isReturning := by
  cases n <;> rfl

mutual

@[simp] theorem Node.relined_id (n : Node) : n.relined id = n := by
  match n with
  | .literal .. | .variable .. | .noOp .. => rfl
  | .negation operand _ | .function _ _ _ operand _ | .print operand _ | .typeOf operand _
  | .returning operand _ =>
    simp only [Node.relined, operand.relined_id, id_eq]
  | .binary left _ right _ | .assignment left right _ | .loop left right _ =>
    simp only [Node.relined, left.relined_id, right.relined_id, id_eq]
  | .declaration _ _ initializer _ => simp only [Node.relined, relinedOption_id initializer, id_eq]
  | .block nodes _ | .call _ nodes _ => simp only [Node.relined, relinedNodes_id nodes, id_eq]
  | .branch condition thenBody elseBody _ =>
    simp only [Node.relined, condition.relined_id, thenBody.relined_id, relinedOption_id elseBody,
      id_eq]

theorem relinedOption_id (n : Option Node) : relinedOption id n = n := by
  match n with
  | none => rfl
  | some n => rw [relinedOption, n.relined_id]

theorem relinedNodes_id (nodes : List Node) : relinedNodes id nodes = nodes := by
  match nodes with
  | [] => rfl
  | n :: nodes => rw [relinedNodes, n.relined_id, relinedNodes_id nodes]

end

theorem EvalError.relined_id : EvalError.relined id = id := by
  funext e
  cases e <;> rfl

@[simp] theorem Overload.relined_id (entry : Overload) : entry.relined id = entry := by
  obtain ⟨name, params, returns, body⟩ := entry
  cases body with
  | native f => rfl
  | user names body => simp only [relined, FunctionBody.relined, body.relined_id]

theorem Registry.relined_id (r : Registry) : r.relined id = r := by
  have hentries : Overload.relined id = id := funext Overload.relined_id
  rw [relined, hentries, List.map_id]

/-- A result as it is found where the lines are renumbered by `f` and what it holds is taken over by
`g`. -/
inductive Relined {α β : Type} (f : Nat → Nat) (g : α → β) :
    Except EvalError α → Except EvalError β → Prop
  | ok (a : α) : Relined f g (.ok a) (.ok (g a))
  | error (e : EvalError) : Relined f g (.error e) (.error (e.relined f))

section Results

variable {α β γ δ : Type} (f : Nat → Nat)

theorem Relined.bind {f : Nat → Nat} {g : α → β} {h : γ → δ} {x : Except EvalError α}
    {x' : Except EvalError β} {k : α → Except EvalError γ} {k' : β → Except EvalError δ}
    (hx : Relined f g x x') (hk : ∀ a, Relined f h (k a) (k' (g a))) :
    Relined f h (x >>= k) (x' >>= k') := by
  cases hx with
  | ok a => exact hk a
  | error e => exact .error e

theorem relined_floatOfInt (n : Int64) (line : Nat) :
    Relined f id (floatOfInt n line) (floatOfInt n (f line)) := by
  unfold floatOfInt
  split
  · exact .error _
  · exact .ok _

theorem relined_fit (type : ValueType) (value : Value) (line : Nat) :
    Relined f id (type.fit value line) (type.fit value (f line)) := by
  unfold ValueType.fit
  split
  · exact .ok _
  split
  · exact .ok _
  · split
    · exact (relined_floatOfInt f _ line).bind fun _ => .ok _
    · exact .ok _
    · exact .ok _

theorem relined_fitDeclared (type : ValueType) (value : Value) (line : Nat) :
    Relined f id (type.fitDeclared value line) (type.fitDeclared value (f line)) := by
  apply (relined_fit f type value line).bind
  intro fitted
  cases fitted with
  | none => exact .error _
  | some fitted => exact .ok _

theorem relined_get (s : Scope) (name : String) (line : Nat) :
    Relined f id (s.get name line) (s.get name (f line)) := by
  unfold Scope.get
  split
  · exact .ok _
  · exact .error _

theorem relined_declare (s : Scope) (name : String) (v : Variable) (line : Nat) :
    Relined f id (s.declare name v line) (s.declare name v (f line)) := by
  unfold Scope.declare
  split
  · exact .error _
  · exact .ok _

theorem relined_assign (s : Scope) (name : String) (value : Value) (line : Nat) :
    Relined f id (s.assign name value line) (s.assign name value (f line)) := by
  unfold Scope.assign
  split
  · exact .ok _
  · exact .error _

theorem relined_bind (s : Scope) (line : Nat) (names : List String) (types : List ValueType)
    (values : List Value) :
    Relined f id (s.bind line names types values) (s.bind (f line) names types values) := by
  fun_induction Scope.bind s line names types values with
  | case1 s name names type types value values ih =>
    rw [Scope.bind]
    exact (relined_declare f s name _ line).bind ih
  | case2 s names types values hne =>
    rw [Scope.bind]
    · exact .ok _
    · exact hne

theorem relined_initial (name : String) (declared : Option ValueType) (value : Option Value)
    (line : Nat) :
    Relined f id (Variable.initial name declared value line)
      (Variable.initial name declared value (f line)) := by
  unfold Variable.initial
  split
  · exact .ok _
  · exact (relined_fitDeclared f _ _ line).bind fun _ => .ok _
  · exact .error _
  · exact .error _
  · exact .ok _

theorem relined_declareInitial (s : Scope) (name : String) (declared : Option ValueType)
    (value : Option Value) (line : Nat) :
    Relined f id (s.declareInitial name declared value line)
      (s.declareInitial name declared value (f line)) := by
  unfold Scope.declareInitial
  split
  · exact .error _
  · exact (relined_initial f name declared value line).bind fun v => relined_declare f s name v line

theorem relined_resolveType (name : String) (line : Nat) :
    Relined f id (resolveType name line) (resolveType name (f line)) := by
  unfold resolveType
  split
  · exact .ok _
  · exact .error _

theorem relined_resolveStorable (name : String) (line : Nat) :
    Relined f id (resolveStorable name line) (resolveStorable name (f line)) := by
  apply (relined_resolveType f name line).bind
  intro type
  dsimp only [id_eq]
  split
  · exact .error _
  · exact .ok _

theorem relined_declaredType (declared : DeclaredType) (line : Nat) :
    Relined f id (declared.resolve line) (declared.resolve (f line)) := by
  cases declared with
  | inferred => exact .ok _
  | named name =>
    simp only [DeclaredType.resolve, map_eq_pure_bind]
    exact (relined_resolveStorable f name line).bind fun type => .ok _

theorem relined_parameterTypes (line : Nat) (seen : List String) (params : List Parameter) :
    Relined f id (parameterTypes line seen params) (parameterTypes (f line) seen params) := by
  induction params generalizing seen with
  | nil => exact .ok _
  | cons param params ih =>
    apply (relined_resolveStorable f param.typeName line).bind
    intro type
    dsimp only [id_eq]
    split
    · exact .error _
    · exact (ih (param.name :: seen)).bind fun types => .ok _

theorem relined_ofDefinition (name returnType : String) (params : List Parameter) (body : Node)
    (line : Nat) :
    Relined f (Overload.relined f) (Overload.ofDefinition name returnType params body line)
      (Overload.ofDefinition name returnType params (body.relined f) (f line)) := by
  apply (relined_resolveType f returnType line).bind
  intro returns
  exact (relined_parameterTypes f line [] params).bind fun types => .ok _

theorem relined_returned (entry : Overload) (result : Option Value) (line : Nat) :
    Relined f id (entry.returned result line) ((entry.relined f).returned result (f line)) := by
  change Relined f id _ (entry.returned result (f line))
  unfold Overload.returned
  split
  · exact .ok _
  · cases result with
    | none => exact .ok _
    | some value =>
      apply (relined_fit f entry.returns value line).bind
      intro fitted
      cases fitted with
      | none => exact .error _
      | some fitted => exact .ok _

theorem find?_relined (r : Registry) (name : String) (types : List ValueType) :
    (r.relined f).find? name types = (r.find? name types).map (Overload.relined f) := by
  simp only [Registry.find?, Registry.relined, List.find?_map]
  rfl

theorem relined_resolve (r : Registry) (name : String) (types : List ValueType) (line : Nat) :
    Relined f (Overload.relined f) (r.resolve name types line)
      ((r.relined f).resolve name types (f line)) := by
  unfold Registry.resolve
  rw [find?_relined]
  cases r.find? name types with
  | none => exact .error _
  | some entry => exact .ok entry

theorem relined_resolveOperator (r : Registry) (op : BinaryOperator) (left right : ValueType)
    (line : Nat) :
    Relined f (Overload.relined f) (r.resolveOperator op left right line)
      ((r.relined f).resolveOperator op left right (f line)) := by
  unfold Registry.resolveOperator
  rw [find?_relined, find?_relined]
  cases r.find? op.functionName [left, right] with
  | some entry => exact .ok entry
  | none =>
    simp only [Option.map_none]
    split
    · cases r.find? op.functionName [.string, .object] with
      | none => exact .error _
      | some entry => exact .ok entry
    · exact .error _

theorem relined_register (r : Registry) (entry : Overload) (line : Nat) :
    Relined f (Registry.relined f) (r.register entry line)
      ((r.relined f).register (entry.relined f) (f line)) := by
  have hfind : (r.relined f).find? (entry.relined f).name (entry.relined f).params = _ :=
    find?_relined f r entry.name entry.params
  unfold Registry.register
  rw [hfind]
  cases r.find? entry.name entry.params with
  | some old => exact .error _
  | none =>
    have happend : Registry.relined f ⟨r.entries ++ [entry]⟩ =
        ⟨(r.relined f).entries ++ [entry.relined f]⟩ := by
      simp [Registry.relined]
    simp only [Option.map_none, ← happend]
    exact .ok _

theorem relined_two (args : List Value) (line : Nat) :
    Relined f id (Builtin.two args line) (Builtin.two args (f line)) := by
  unfold Builtin.two
  split
  · exact .ok _
  · exact .error _

theorem relined_arithmetic (exact : Int → Int → Int) (rounded : Float → Float → Float)
    (left right : Value) (line : Nat) :
    Relined f id (Builtin.arithmetic exact rounded left right line)
      (Builtin.arithmetic exact rounded left right (f line)) := by
  unfold Builtin.arithmetic
  split
  · split
    · exact .ok _
    · exact .error _
  · exact .ok _
  · exact (relined_floatOfInt f _ line).bind fun _ => .ok _
  · exact (relined_floatOfInt f _ line).bind fun _ => .ok _
  · exact .error _

theorem relined_checked (text : String) (line : Nat) :
    Relined f id (Builtin.checked text line) (Builtin.checked text (f line)) := by
  unfold Builtin.checked
  split
  · exact .error _
  · exact .ok _

theorem relined_join (left right : Value) (line : Nat) :
    Relined f id (Builtin.join left right line) (Builtin.join left right (f line)) := by
  unfold Builtin.join
  split
  · exact relined_checked f _ line
  · exact .error _

theorem relined_repetition (left right : Value) (line : Nat) :
    Relined f id (Builtin.repetition left right line) (Builtin.repetition left right (f line)) := by
  unfold Builtin.repetition
  split
  · dsimp only
    split
    · exact .error _
    · exact .ok _
  · exact .error _
  · exact .error _

theorem relined_apply (b : Builtin) (args : List Value) (line : Nat) :
    Relined f id (b.apply args line) (b.apply args (f line)) := by
  cases b with
  | add => exact (relined_two f args line).bind fun pair => relined_arithmetic f _ _ _ _ line
  | subtract => exact (relined_two f args line).bind fun pair => relined_arithmetic f _ _ _ _ line
  | multiply => exact (relined_two f args line).bind fun pair => relined_arithmetic f _ _ _ _ line
  | concatenate => exact (relined_two f args line).bind fun pair => relined_join f _ _ line
  | «repeat» => exact (relined_two f args line).bind fun pair => relined_repetition f _ _ line
  | divide =>
    apply (relined_two f args line).bind
    intro pair
    dsimp only [id_eq]
    split
    · exact .error _
    · exact relined_arithmetic f _ _ _ _ line
  | negate =>
    simp only [Builtin.apply]
    split
    · split
      · exact .ok _
      · exact .error _
    · exact .ok _
    · exact .error _

end Results

/-- Another account of the same evaluation. It numbers the lines in its own way, and it starts with
these failures in the log and this in the output. -/
structure Account where
  line : Nat → Nat
  errors : Array EvalError
  output : Output

namespace Account

variable (a : Account)

def state (s : State) : State where
  scope := s.scope
  registry := s.registry.relined a.line
  errors := a.errors ++ s.errors.map (EvalError.relined a.line)
  output := ⟨a.output.lines ++ s.output.lines, a.output.reports ++ s.output.reports⟩
  depth := s.depth

/-- In this account `x` reads as `x'`, where values are taken over by `g`. -/
abbrev Retells {α β : Type} (g : α → β) (x : Eval α) (x' : Eval β) : Prop :=
  Mirrors (EvalError.relined a.line) a.state g x x'

variable {a} {α β : Type}

theorem retells_ofExcept {g : α → β} {x : Except EvalError α} {x' : Except EvalError β}
    (h : Relined a.line g x x') : a.Retells g (Eval.ofExcept x) (Eval.ofExcept x') := by
  cases h <;> exact fun _ => rfl

theorem Retells.required {line : Nat} {act act' : Eval (Option Value)}
    (h : a.Retells id act act') :
    a.Retells id (Eval.required line act) (Eval.required (a.line line) act') := by
  apply h.bind
  intro value
  cases value with
  | none => exact mirrors_throw _
  | some value => exact mirrors_pure value

theorem Retells.times {act act' : Eval (Option Value)} (h : a.Retells id act act')
    (last : Option Value) (count : Nat) :
    a.Retells id (Eval.times act last count) (Eval.times act' last count) := by
  induction count generalizing last with
  | zero => exact mirrors_pure last
  | succ count ih => exact h.bind ih

theorem Retells.inFrame (frame : Scope) {act act' : Eval α} (h : a.Retells id act act') :
    a.Retells id (Eval.inFrame frame act) (Eval.inFrame frame act') := by
  intro s
  have hframe := h { s with scope := frame, depth := s.depth + 1 }
  unfold Eval.inFrame
  simp only [state] at hframe ⊢
  rw [hframe]
  cases act { s with scope := frame, depth := s.depth + 1 } <;> rfl

theorem state_log (e : EvalError) (s : State) :
    (a.state s).log (e.relined a.line) = a.state (s.log e) := by
  simp [state, State.log]

theorem state_write (text : String) (s : State) :
    (a.state s).write text = a.state (s.write text) := by
  simp [state, State.write]

theorem retells_declareAll (type : Option ValueType) (value : Option Value) (line : Nat)
    (names : List String) :
    a.Retells id (Eval.declareAll type value line names)
      (Eval.declareAll type value (a.line line) names) := by
  induction names with
  | nil => exact mirrors_pure ()
  | cons name names ih =>
    apply mirrors_get.bind
    intro s
    have hname := relined_declareInitial a.line s.scope name type value line
    dsimp only [state]
    generalize s.scope.declareInitial name type value line = x at hname ⊢
    generalize s.scope.declareInitial name type value (a.line line) = x' at hname ⊢
    cases hname with
    | ok scope => exact Mirrors.bind (mirrors_modify fun _ => rfl) fun _ => ih
    | error e => exact Mirrors.bind (mirrors_modify (state_log e)) fun _ => ih

/-- In this account functions are called alike. -/
def Invokes (a : Account) (invoke invoke' : Invoke) : Prop :=
  ∀ entry args line,
    a.Retells id (invoke entry args line) (invoke' (entry.relined a.line) args (a.line line))

theorem Invokes.resolve {invoke invoke' : Invoke} (hinvoke : a.Invokes invoke invoke')
    {find : State → Except EvalError Overload} {find' : State → Except EvalError Overload}
    (hfind : ∀ s, Relined a.line (Overload.relined a.line) (find s) (find' (a.state s)))
    (args : List Value) (line : Nat) :
    a.Retells id
      (do
        let entry ← Eval.ofExcept (find (← get))
        return some (← invoke entry args line) : Eval (Option Value))
      (do
        let entry ← Eval.ofExcept (find' (← get))
        return some (← invoke' entry args (a.line line)) : Eval (Option Value)) := by
  apply mirrors_get.bind
  intro s
  apply (retells_ofExcept (hfind s)).bind
  intro entry
  exact (hinvoke entry args line).bind fun value => mirrors_pure _

end Account

namespace Node

open Account

variable {a : Account} {invoke invoke' : Invoke}

mutual

theorem retells_eval (hinvoke : a.Invokes invoke invoke') (n : Node) :
    a.Retells id (n.eval invoke) ((n.relined a.line).eval invoke') := by
  match n with
  | literal value line => exact mirrors_pure _
  | noOp line => exact mirrors_pure _
  | .variable name line =>
    simp only [relined, eval]
    apply mirrors_get.bind
    intro s
    exact (retells_ofExcept (relined_get a.line s.scope name line)).bind fun v => mirrors_pure _
  | negation operand line =>
    simp only [relined, eval, line_relined]
    apply (retells_eval hinvoke operand).required.bind
    intro value
    exact hinvoke.resolve (fun s => relined_resolve a.line s.registry _ _ line) _ line
  | binary left op right line =>
    simp only [relined, eval, line_relined]
    apply (retells_eval hinvoke left).required.bind
    intro x
    apply (retells_eval hinvoke right).required.bind
    intro y
    exact hinvoke.resolve (fun s => relined_resolveOperator a.line s.registry op _ _ line) _ line
  | assignment target value line =>
    match target with
    | .variable name _ =>
      simp only [relined, eval, line_relined]
      apply mirrors_get.bind
      intro s
      apply (retells_ofExcept (relined_get a.line s.scope name line)).bind
      intro v
      apply (retells_eval hinvoke value).required.bind
      intro w
      apply (retells_ofExcept (relined_fitDeclared a.line v.type w line)).bind
      intro fitted
      apply mirrors_get.bind
      intro t
      apply (retells_ofExcept (relined_assign a.line t.scope name fitted line)).bind
      intro scope
      exact Mirrors.bind (mirrors_modify fun _ => rfl) fun _ => mirrors_pure _
    | .literal .. | .negation .. | .binary .. | .assignment .. | .declaration .. | .block ..
    | .branch .. | .loop .. | .print .. | .typeOf .. | .returning .. | .function .. | .call ..
    | .noOp .. => exact mirrors_throw (EvalError.notAssignable line)
  | declaration declared names initializer line =>
    simp only [relined, eval]
    apply (retells_ofExcept (relined_declaredType a.line declared line)).bind
    intro type
    apply (retells_evalInitializer hinvoke initializer).bind
    intro value
    exact (retells_declareAll type value line names).bind fun _ => mirrors_pure _
  | block statements line =>
    simp only [relined, eval]
    exact retells_evalStatements hinvoke none statements
  | branch condition thenBody elseBody line =>
    simp only [relined, eval, line_relined]
    apply (retells_eval hinvoke condition).required.bind
    intro value
    dsimp only [id_eq]
    split
    · exact retells_eval hinvoke thenBody
    · exact retells_evalElse hinvoke elseBody
    · exact mirrors_throw _
  | loop count body line =>
    simp only [relined, eval, line_relined]
    apply (retells_eval hinvoke count).required.bind
    intro value
    dsimp only [id_eq]
    split
    · exact (retells_eval hinvoke body).times none _
    · exact mirrors_throw _
  | print expr line =>
    simp only [relined, eval]
    apply (retells_eval hinvoke expr).bind
    intro value
    exact Mirrors.bind (mirrors_modify (state_write _)) fun _ => mirrors_pure _
  | typeOf expr line =>
    simp only [relined, eval]
    exact (retells_eval hinvoke expr).required.bind fun value => mirrors_pure _
  | returning expr line =>
    simp only [relined, eval]
    exact retells_eval hinvoke expr
  | function name returnType params body line =>
    simp only [relined, eval]
    apply (retells_ofExcept (relined_ofDefinition a.line name returnType params body line)).bind
    intro entry
    apply mirrors_get.bind
    intro s
    apply (retells_ofExcept (relined_register a.line s.registry entry line)).bind
    intro registry
    exact Mirrors.bind (mirrors_modify fun _ => rfl) fun _ => mirrors_pure _
  | call name arguments line =>
    simp only [relined, eval]
    apply (retells_evalArguments hinvoke arguments).bind
    intro args
    exact hinvoke.resolve (fun s => relined_resolve a.line s.registry name _ line) _ line

theorem retells_evalInitializer (hinvoke : a.Invokes invoke invoke') (initializer : Option Node) :
    a.Retells id (evalInitializer invoke initializer)
      (evalInitializer invoke' (relinedOption a.line initializer)) := by
  match initializer with
  | none => exact mirrors_pure none
  | some node =>
    simp only [relinedOption, evalInitializer, map_eq_pure_bind, line_relined]
    exact (retells_eval hinvoke node).required.bind fun value => mirrors_pure _

theorem retells_evalElse (hinvoke : a.Invokes invoke invoke') (elseBody : Option Node) :
    a.Retells id (evalElse invoke elseBody)
      (evalElse invoke' (relinedOption a.line elseBody)) := by
  match elseBody with
  | none => exact mirrors_pure none
  | some node =>
    simp only [relinedOption, evalElse]
    exact retells_eval hinvoke node

theorem retells_evalStatements (hinvoke : a.Invokes invoke invoke') (result : Option Value)
    (nodes : List Node) :
    a.Retells id (evalStatements invoke result nodes)
      (evalStatements invoke' result (relinedNodes a.line nodes)) := by
  match nodes with
  | [] => exact mirrors_pure result
  | node :: nodes =>
    simp only [relinedNodes, evalStatements, isReturning_relined]
    exact (retells_eval hinvoke node).bind fun value => retells_evalStatements hinvoke _ nodes

theorem retells_evalArguments (hinvoke : a.Invokes invoke invoke') (nodes : List Node) :
    a.Retells id (evalArguments invoke nodes)
      (evalArguments invoke' (relinedNodes a.line nodes)) := by
  match nodes with
  | [] => exact mirrors_pure []
  | node :: nodes =>
    simp only [relinedNodes, evalArguments, line_relined]
    apply (retells_eval hinvoke node).required.bind
    intro value
    exact (retells_evalArguments hinvoke nodes).bind fun values => mirrors_pure _

end

end Node

namespace Account

variable {a : Account}

theorem invokes (calls : Nat) : a.Invokes (invoke calls) (invoke calls) := by
  intro entry args line
  cases hbody : entry.body with
  | native b =>
    have hbody' : (entry.relined a.line).body = .native b := by
      rw [Overload.relined, hbody, FunctionBody.relined]
    rw [invoke_native hbody, invoke_native hbody']
    exact retells_ofExcept (relined_apply a.line b args line)
  | user params body =>
    have hbody' : (entry.relined a.line).body = .user params (body.relined a.line) := by
      rw [Overload.relined, hbody, FunctionBody.relined]
    cases calls with
    | zero =>
      rw [invoke_user_zero hbody, invoke_user_zero hbody']
      exact mirrors_throw (EvalError.callsTooDeep callLimit line)
    | succ calls =>
      rw [invoke_user_succ hbody, invoke_user_succ hbody']
      apply (retells_ofExcept
        (relined_bind a.line Scope.empty line params entry.params args)).bind
      intro frame
      apply (Retells.inFrame frame (Node.retells_eval (invokes calls) body)).bind
      intro result
      exact retells_ofExcept (relined_returned a.line entry result line)

/-- The evaluation of a tree reads the same in every account. -/
theorem retells_node (n : Node) : a.Retells id (Eval.node n) (Eval.node (n.relined a.line)) :=
  fun s => Node.retells_eval (invokes (callLimit - s.depth)) n s

end Account

end ConsoleScript
