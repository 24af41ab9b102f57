import ConsoleScript.Proofs.Evaluation.Evolution
import ConsoleScript.Proofs.Syntax.Stream
import Mathlib.Logic.Function.Iterate

/-!
# Evaluation step by step

The evaluator as a machine. It looks at one thing at a time, a node, a call, a result or a failure,
and keeps on a stack what is left to be done with the next result. A step runs no evaluation of a
node, and whether a call is allowed is read off the state in which it is attempted. Nothing in the
machine counts down, so it might as well go on for ever; `reaches_node` says that it comes to the
result of `Eval.node`.
-/

namespace ConsoleScript

/-- What a value is needed for. -/
inductive Use where
  | negation (line : Nat)
  | leftOperand (op : BinaryOperator) (right : Node) (line : Nat)
  | rightOperand (left : Value) (op : BinaryOperator) (line : Nat)
  | assignment (name : String) (type : ValueType) (line : Nat)
  | declaration (type : Option ValueType) (names : List String) (line : Nat)
  | condition (thenBody : Node) (elseBody : Option Node) (line : Nat)
  | loopCount (body : Node) (line : Nat)
  | typeOf
  /-- The arguments before it are in reverse. -/
  | argument (name : String) (before : List Value) (behind : List Node) (line : Nat)

/-- What is left to be done with a result. -/
inductive Pending where
  /-- There has to be a value. -/
  | value (line : Nat) (use : Use)
  | statement (result : Option Value) (returning : Bool) (behind : List Node)
  | again (body : Node) (count : Nat)
  | print
  /-- The end of a call, with the scope that it goes back to. -/
  | call (entry : Overload) (caller : Scope) (line : Nat)

inductive Focus where
  | node (n : Node)
  | call (entry : Overload) (args : List Value) (line : Nat)
  | result (value : Option Value)
  | failure (e : EvalError)

structure Machine where
  focus : Focus
  stack : List Pending
  state : State

namespace Machine

def start (n : Node) (s : State) : Machine :=
  ⟨.node n, [], s⟩

/-- The machine when an evaluation has come to its end. -/
def settle (stack : List Pending) : EStateM.Result EvalError State (Option Value) → Machine
  | .ok value s => ⟨.result value, stack, s⟩
  | .error e s => ⟨.failure e, stack, s⟩

/-- Goes on with what was found, or fails. -/
def given {α : Type} (found : Except EvalError α) (stack : List Pending) (s : State)
    (next : α → Machine) : Machine :=
  match found with
  | .ok a => next a
  | .error e => ⟨.failure e, stack, s⟩

def nextArgument (name : String) (before : List Value) (line : Nat) (stack : List Pending)
    (s : State) : List Node → Machine
  | [] =>
    given (s.registry.resolve name (before.reverse.map Value.type) line) stack s fun entry =>
      ⟨.call entry before.reverse line, stack, s⟩
  | n :: behind => ⟨.node n, .value n.line (.argument name before behind line) :: stack, s⟩

def nextStatement (result : Option Value) (stack : List Pending) (s : State) :
    List Node → Machine
  | [] => ⟨.result result, stack, s⟩
  | n :: behind => ⟨.node n, .statement result n.isReturning behind :: stack, s⟩

def nextRun (body : Node) (last : Option Value) (stack : List Pending) (s : State) :
    Nat → Machine
  | 0 => ⟨.result last, stack, s⟩
  | count + 1 => ⟨.node body, .again body count :: stack, s⟩

def declare (type : Option ValueType) (value : Option Value) (names : List String) (line : Nat)
    (stack : List Pending) (s : State) : Machine :=
  ⟨.result none, stack, (Eval.declareAll type value line names).after s⟩

def optional (body : Option Node) (stack : List Pending) (s : State) : Machine :=
  match body with
  | none => ⟨.result none, stack, s⟩
  | some n => ⟨.node n, stack, s⟩

/-- Takes a node apart. -/
def take (stack : List Pending) (s : State) : Node → Machine
  | .literal value _ => ⟨.result (some value), stack, s⟩
  | .variable name line =>
    given (s.scope.get name line) stack s fun v => ⟨.result (some v.value), stack, s⟩
  | .negation operand line => ⟨.node operand, .value operand.line (.negation line) :: stack, s⟩
  | .binary left op right line =>
    ⟨.node left, .value left.line (.leftOperand op right line) :: stack, s⟩
  | .assignment (.variable name _) value line =>
    given (s.scope.get name line) stack s fun v =>
      ⟨.node value, .value value.line (.assignment name v.type line) :: stack, s⟩
  | .assignment _ _ line => ⟨.failure (.notAssignable line), stack, s⟩
  | .declaration declared names initializer line =>
    given (declared.resolve line) stack s fun type =>
      match initializer with
      | none => declare type none names line stack s
      | some n => ⟨.node n, .value n.line (.declaration type names line) :: stack, s⟩
  | .block statements _ => nextStatement none stack s statements
  | .branch condition thenBody elseBody line =>
    ⟨.node condition, .value condition.line (.condition thenBody elseBody line) :: stack, s⟩
  | .loop count body line => ⟨.node count, .value count.line (.loopCount body line) :: stack, s⟩
  | .print expr _ => ⟨.node expr, .print :: stack, s⟩
  | .typeOf expr line => ⟨.node expr, .value line .typeOf :: stack, s⟩
  | .returning expr _ => ⟨.node expr, stack, s⟩
  | .function name returnType params body line =>
    given (Overload.ofDefinition name returnType params body line) stack s fun entry =>
      given (s.registry.register entry line) stack s fun registry =>
        ⟨.result none, stack, { s with registry }⟩
  | .call name arguments line => nextArgument name [] line stack s arguments
  | .noOp _ => ⟨.result none, stack, s⟩

def apply (v : Value) (stack : List Pending) (s : State) : Use → Machine
  | .negation line =>
    given (s.registry.resolve negationName [v.type] line) stack s fun entry =>
      ⟨.call entry [v] line, stack, s⟩
  | .leftOperand op right line =>
    ⟨.node right, .value right.line (.rightOperand v op line) :: stack, s⟩
  | .rightOperand left op line =>
    given (s.registry.resolveOperator op left.type v.type line) stack s fun entry =>
      ⟨.call entry [left, v] line, stack, s⟩
  | .assignment name type line =>
    given (type.fitDeclared v line) stack s fun fitted =>
      given (s.scope.assign name fitted line) stack s fun scope =>
        ⟨.result none, stack, { s with scope }⟩
  | .declaration type names line => declare type (some v) names line stack s
  | .condition thenBody elseBody line =>
    match v with
    | .bool true => ⟨.node thenBody, stack, s⟩
    | .bool false => optional elseBody stack s
    | other => ⟨.failure (.notBoolean other.type line), stack, s⟩
  | .loopCount body line =>
    match v with
    | .int n => nextRun body none stack s n.toInt.toNat
    | other => ⟨.failure (.notLoopCount other.type line), stack, s⟩
  | .typeOf => ⟨.result (some (.string v.type.name)), stack, s⟩
  | .argument name before behind line => nextArgument name (v :: before) line stack s behind

/-- Attempts a call. -/
def call (entry : Overload) (args : List Value) (line : Nat) (stack : List Pending) (s : State) :
    Machine :=
  match entry.body with
  | .native f => given (f.apply args line) stack s fun v => ⟨.result (some v), stack, s⟩
  | .user params body =>
    if callLimit ≤ s.depth then ⟨.failure (.callsTooDeep callLimit line), stack, s⟩
    else
      given (Scope.empty.bind line params entry.params args) stack s fun frame =>
        ⟨.node body, .call entry s.scope line :: stack, s.entered frame⟩

/-- The state when a call has been left. -/
def left (caller : Scope) (s : State) : State :=
  { s with scope := caller, depth := s.depth - 1 }

def resume (value : Option Value) (stack : List Pending) (s : State) : Pending → Machine
  | .value line use =>
    match value with
    | some v => apply v stack s use
    | none => ⟨.failure (.missingValue line), stack, s⟩
  | .statement result returning behind =>
    nextStatement (if returning then value else result) stack s behind
  | .again body count => nextRun body value stack s count
  | .print => ⟨.result none, stack, s.write (Value.printed value)⟩
  | .call entry caller line =>
    given (entry.returned value line) stack (left caller s) fun v =>
      ⟨.result (some v), stack, left caller s⟩

/-- A failure ends all that is pending. Only the calls among it are left in order. -/
def unwind (e : EvalError) (stack : List Pending) (s : State) : Pending → Machine
  | .call _ caller _ => ⟨.failure e, stack, left caller s⟩
  | _ => ⟨.failure e, stack, s⟩

/-- One step. A machine with a result or a failure and nothing pending stays as it is. -/
def step (m : Machine) : Machine :=
  match m.focus, m.stack with
  | .node n, stack => take stack m.state n
  | .call entry args line, stack => call entry args line stack m.state
  | .result value, pending :: stack => resume value stack m.state pending
  | .failure e, pending :: stack => unwind e stack m.state pending
  | .result _, [] | .failure _, [] => m

/-- The one machine turns into the other after some number of steps. -/
def Reaches (m m' : Machine) : Prop :=
  ∃ k, step^[k] m = m'

namespace Reaches

theorem refl (m : Machine) : Reaches m m :=
  ⟨0, rfl⟩

theorem trans {m m₁ m' : Machine} (h : Reaches m m₁) (h' : Reaches m₁ m') : Reaches m m' := by
  obtain ⟨k, rfl⟩ := h
  obtain ⟨k', rfl⟩ := h'
  exact ⟨k' + k, Function.iterate_add_apply step k' k m⟩

theorem of_step {m m' : Machine} (h : Reaches m.step m') : Reaches m m' := by
  obtain ⟨k, rfl⟩ := h
  exact ⟨k + 1, rfl⟩

end Reaches

/-! ### The machine comes to the result of the evaluator -/

variable {stack : List Pending} {s : State} {m : Machine}

theorem reaches_given {α : Type} {found : Except EvalError α} {next : α → Machine}
    {f : α → Eval (Option Value)}
    (h : ∀ a, found = .ok a → Reaches (next a) (settle stack (f a s))) :
    Reaches (given found stack s next) (settle stack ((Eval.ofExcept found >>= f) s)) := by
  cases found with
  | ok a => exact h a rfl
  | error e => exact .refl _

/-- What a pending part makes of a result is what is bound to it. It is skipped if there is a
failure. -/
theorem reaches_pending {pending : Pending} {act : Eval (Option Value)}
    {f : Option Value → Eval (Option Value)}
    (hskip : ∀ e t, unwind e stack t pending = ⟨.failure e, stack, t⟩)
    (hact : Reaches m (settle (pending :: stack) (act s)))
    (hf : ∀ value t, act s = .ok value t →
      Reaches (resume value stack t pending) (settle stack (f value t))) :
    Reaches m (settle stack ((act >>= f) s)) := by
  cases hrun : act s with
  | ok value t =>
    rw [hrun] at hact
    rw [bind_of_ok hrun]
    exact hact.trans (.of_step (hf value t hrun))
  | error e t =>
    rw [hrun] at hact
    rw [bind_of_error hrun]
    apply hact.trans
    apply Reaches.of_step
    change Reaches (unwind e stack t pending) _
    rw [hskip]
    exact .refl _

theorem reaches_required {line : Nat} {use : Use} {act : Eval (Option Value)}
    {f : Value → Eval (Option Value)}
    (hact : Reaches m (settle (.value line use :: stack) (act s)))
    (hf : ∀ v t, act s = .ok (some v) t → Reaches (apply v stack t use) (settle stack (f v t))) :
    Reaches m (settle stack ((Eval.required line act >>= f) s)) := by
  rw [Eval.required, bind_assoc]
  apply reaches_pending (fun _ _ => rfl) hact
  intro value t hrun
  cases value with
  | none => exact .refl _
  | some v => exact hf v t hrun

/-- Declarations that cannot be made are logged, so a list of them never fails. -/
theorem declareAll_ok (type : Option ValueType) (value : Option Value) (line : Nat)
    (names : List String) (s : State) :
    ∃ t, Eval.declareAll type value line names s = .ok () t ∧ t.depth = s.depth := by
  induction names generalizing s with
  | nil => exact ⟨s, rfl, rfl⟩
  | cons name names ih =>
    rw [Eval.declareAll, get_bind]
    cases s.scope.declareInitial name type value line with
    | ok scope => exact ih { s with scope }
    | error e => exact ih (s.log e)

theorem reaches_declare {type : Option ValueType} {value : Option Value} {names : List String}
    {line : Nat} : Reaches (declare type value names line stack s)
      (settle stack ((do Eval.declareAll type value line names; return none) s)) := by
  obtain ⟨t, ht, _⟩ := declareAll_ok type value line names s
  rw [declare, Eval.after, ht, bind_of_ok ht]
  exact .refl _

theorem reaches_times {d : Nat} {body : Node} {act : Eval (Option Value)}
    (hact : ∀ stack (s : State), s.depth = d →
      Reaches ⟨.node body, stack, s⟩ (settle stack (act s)))
    (hdepth : ∀ (s t : State) value, s.depth = d → act s = .ok value t → t.depth = d)
    (last : Option Value) (count : Nat) (stack : List Pending) (s : State) (hs : s.depth = d) :
    Reaches (nextRun body last stack s count) (settle stack (Eval.times act last count s)) := by
  induction count generalizing last s with
  | zero => exact .refl _
  | succ count ih =>
    apply reaches_pending (fun _ _ => rfl) (hact _ s hs)
    intro value t hrun
    exact ih value t (hdepth s t value hs hrun)

theorem reaches_native {entry : Overload} {f : Builtin} (h : entry.body = .native f)
    (args : List Value) (line calls : Nat) : Reaches (call entry args line stack s)
      (settle stack ((some <$> invoke calls entry args line) s)) := by
  rw [call, h, invoke_native h, map_eq_pure_bind]
  exact reaches_given fun v _ => .refl _

/-- The end of a call gives back the scope of the caller, whether its body succeeds or fails. -/
theorem reaches_inFrame {entry : Overload} {line : Nat} {frame : Scope} {act : Eval (Option Value)}
    (h : Reaches m (settle (.call entry s.scope line :: stack) (act (s.entered frame)))) :
    Reaches m (settle stack ((do
      let result ← Eval.inFrame frame act
      return some (← Eval.ofExcept (entry.returned result line))) s)) := by
  apply h.trans
  apply Reaches.of_step
  cases hrun : act (s.entered frame) with
  | ok result t =>
    rw [bind_of_ok (Eval.inFrame_of_ok hrun)]
    exact reaches_given fun v _ => .refl _
  | error e t =>
    rw [bind_of_error (Eval.inFrame_of_error hrun)]
    exact .refl _

/-- Where `d` calls are in progress and `calls` more are allowed, the machine comes through every
call as the evaluator does. -/
def CallsReach (d calls : Nat) : Prop :=
  ∀ (entry : Overload) (args : List Value) (line : Nat) (stack : List Pending) (s : State),
    s.depth = d → Reaches ⟨.call entry args line, stack, s⟩
      (settle stack ((some <$> invoke calls entry args line) s))

end Machine

theorem Node.evolves_eval {calls d : Nat} (hcalls : calls ≤ callLimit - d) (n : Node) {s : State}
    (hs : s.depth = d) : Evolves s ((n.eval (invoke calls)).after s) := by
  have hending := (Node.follows_trace (followsAt_tracedInvoke hcalls) n s hs).ending
  rwa [Node.erase_trace, erase_tracedInvoke] at hending

theorem Node.depth_eval {calls d : Nat} (hcalls : calls ≤ callLimit - d) (n : Node) {s t : State}
    (hs : s.depth = d) {value : Option Value} (h : n.eval (invoke calls) s = .ok value t) :
    t.depth = d := by
  have hevolves := n.evolves_eval hcalls hs
  rw [Eval.after, h] at hevolves
  exact hevolves.depth_eq.trans hs

namespace Node

open Machine

variable {d calls : Nat}

mutual

theorem reaches_eval (hcalls : calls ≤ callLimit - d) (hreach : CallsReach d calls) (n : Node)
    (stack : List Pending) (s : State) (hs : s.depth = d) :
    Reaches ⟨.node n, stack, s⟩ (settle stack (n.eval (invoke calls) s)) := by
  apply Reaches.of_step
  match n with
  | literal value line => exact .refl _
  | noOp line => exact .refl _
  | .variable name line =>
    rw [eval]
    exact reaches_given fun v _ => .refl _
  | negation operand line =>
    rw [eval]
    apply reaches_required (reaches_eval hcalls hreach operand _ s hs)
    intro v t hrun
    exact reaches_given fun entry _ =>
      hreach entry [v] line stack t (operand.depth_eval hcalls hs hrun)
  | binary left op right line =>
    rw [eval]
    apply reaches_required (reaches_eval hcalls hreach left _ s hs)
    intro a t hrun
    have ht := left.depth_eval hcalls hs hrun
    apply reaches_required (reaches_eval hcalls hreach right _ t ht)
    intro b u hrun'
    exact reaches_given fun entry _ =>
      hreach entry [a, b] line stack u (right.depth_eval hcalls ht hrun')
  | assignment target value line =>
    match target with
    | .variable name _ =>
      rw [eval]
      apply reaches_given
      intro v _
      apply reaches_required (reaches_eval hcalls hreach value _ s hs)
      intro a t _
      exact reaches_given fun fitted _ => reaches_given fun scope _ => .refl _
    | .literal .. | .negation .. | .binary .. | .assignment .. | .declaration .. | .block ..
    | .branch .. | .loop .. | .print .. | .typeOf .. | .returning .. | .function .. | .call ..
    | .noOp .. => exact .refl _
  | declaration declared names initializer line =>
    rw [eval]
    apply reaches_given
    intro type _
    match initializer with
    | none =>
      rw [evalInitializer, pure_bind]
      exact reaches_declare
    | some node =>
      rw [evalInitializer, map_eq_pure_bind, bind_assoc]
      apply reaches_required (reaches_eval hcalls hreach node _ s hs)
      intro v t _
      rw [pure_bind]
      exact reaches_declare
  | block statements line =>
    rw [eval]
    exact reaches_statements hcalls hreach none statements stack s hs
  | branch condition thenBody elseBody line =>
    rw [eval]
    apply reaches_required (reaches_eval hcalls hreach condition _ s hs)
    intro v t hrun
    have ht := condition.depth_eval hcalls hs hrun
    cases v with
    | bool b =>
      cases b with
      | true => exact reaches_eval hcalls hreach thenBody stack t ht
      | false =>
        match elseBody with
        | none => exact .refl _
        | some other => exact reaches_eval hcalls hreach other stack t ht
    | _ => exact .refl _
  | loop count body line =>
    rw [eval]
    apply reaches_required (reaches_eval hcalls hreach count _ s hs)
    intro v t hrun
    have ht := count.depth_eval hcalls hs hrun
    cases v with
    | int n =>
      exact reaches_times (reaches_eval hcalls hreach body)
        (fun _ _ _ hu => body.depth_eval hcalls hu)
        none _ stack t ht
    | _ => exact .refl _
  | print expr line =>
    rw [eval]
    exact reaches_pending (fun _ _ => rfl) (reaches_eval hcalls hreach expr _ s hs)
      fun value t _ => .refl _
  | typeOf expr line =>
    rw [eval]
    exact reaches_required (reaches_eval hcalls hreach expr _ s hs) fun v t _ => .refl _
  | returning expr line =>
    rw [eval]
    exact reaches_eval hcalls hreach expr stack s hs
  | function name returnType params body line =>
    rw [eval]
    exact reaches_given fun entry _ => reaches_given fun registry _ => .refl _
  | call name arguments line =>
    rw [eval]
    exact reaches_arguments hcalls hreach name line [] arguments stack s hs

theorem reaches_statements (hcalls : calls ≤ callLimit - d) (hreach : CallsReach d calls)
    (result : Option Value) (nodes : List Node) (stack : List Pending) (s : State)
    (hs : s.depth = d) :
    Reaches (nextStatement result stack s nodes)
      (settle stack (evalStatements (invoke calls) result nodes s)) := by
  match nodes with
  | [] => exact .refl _
  | n :: behind =>
    rw [evalStatements]
    apply reaches_pending (fun _ _ => rfl) (reaches_eval hcalls hreach n _ s hs)
    intro value t hrun
    exact reaches_statements hcalls hreach _ behind stack t (n.depth_eval hcalls hs hrun)

theorem reaches_arguments (hcalls : calls ≤ callLimit - d) (hreach : CallsReach d calls)
    (name : String) (line : Nat) (before : List Value) (nodes : List Node) (stack : List Pending)
    (s : State) (hs : s.depth = d) :
    Reaches (nextArgument name before line stack s nodes)
      (settle stack ((do
        let args := before.reverse ++ (← evalArguments (invoke calls) nodes)
        let entry ← Eval.ofExcept ((← get).registry.resolve name (args.map Value.type) line)
        return some (← invoke calls entry args line)) s)) := by
  match nodes with
  | [] =>
    rw [evalArguments, pure_bind, List.append_nil]
    exact reaches_given fun entry _ => hreach entry before.reverse line stack s hs
  | n :: behind =>
    rw [evalArguments, bind_assoc]
    apply reaches_required (reaches_eval hcalls hreach n _ s hs)
    intro v t hrun
    have hrest := reaches_arguments hcalls hreach name line (v :: before) behind stack t
      (n.depth_eval hcalls hs hrun)
    simp only [List.reverse_cons, List.append_assoc, List.cons_append, List.nil_append] at hrest
    simp only [bind_assoc, pure_bind]
    exact hrest

end

end Node

namespace Machine

/-- The induction is on the calls that are still allowed. A call enters its body with one less of
them and one more in progress. -/
theorem callsReach {d calls : Nat} (hcalls : d + calls = callLimit) : CallsReach d calls := by
  induction calls generalizing d with
  | zero =>
    intro entry args line stack s hs
    apply Reaches.of_step
    cases hbody : entry.body with
    | native f => exact reaches_native hbody args line 0
    | user params body =>
      change Reaches (call entry args line stack s) _
      have hlimit : callLimit ≤ s.depth := by omega
      rw [call, hbody, invoke_user_zero hbody]
      simp only [hlimit, ↓reduceIte]
      exact .refl _
  | succ calls ih =>
    intro entry args line stack s hs
    apply Reaches.of_step
    cases hbody : entry.body with
    | native f => exact reaches_native hbody args line (calls + 1)
    | user params body =>
      change Reaches (call entry args line stack s) _
      have hlimit : ¬callLimit ≤ s.depth := by omega
      rw [call, hbody, invoke_user_succ hbody, map_eq_pure_bind, bind_assoc]
      simp only [hlimit, ↓reduceIte]
      apply reaches_given
      intro frame _
      rw [bind_assoc]
      apply reaches_inFrame
      have hdepth : (s.entered frame).depth = d + 1 := by
        rw [← hs]
        rfl
      exact Node.reaches_eval (by omega) (ih (by omega)) body _ _ hdepth

theorem reaches_node (n : Node) {s : State} (hs : s.depth ≤ callLimit) :
    Reaches (start n s) (settle [] (Eval.node n s)) := by
  have hcalls : s.depth + (callLimit - s.depth) = callLimit := by omega
  exact Node.reaches_eval (Nat.le_refl _) (callsReach hcalls) n [] s rfl

end Machine

end ConsoleScript
