import ConsoleScript.Proofs.Evaluation.Machine

/-!
# Evaluation ends, and the depth of calls is balanced

Along a run of the machine the depth of the state and the calls on the stack go up and down
together, and the depth stays within its limit. So no call that is left takes the depth below where
the evaluation began, and the evaluation ends where it began.
-/

namespace ConsoleScript

def Pending.isCall : Pending → Bool
  | .call .. => true
  | _ => false

namespace Machine

/-- The calls that the machine has entered and not yet left. -/
def calls (m : Machine) : Nat :=
  m.stack.countP Pending.isCall

/-- The machine has not entered or left a call on the way from the stack and the state. -/
structure Level (stack : List Pending) (s : State) (m : Machine) : Prop where
  depth : m.state.depth = s.depth
  calls : m.calls = stack.countP Pending.isCall

variable {stack : List Pending} {s : State}

theorem level_here (focus : Focus) : Level stack s ⟨focus, stack, s⟩ :=
  ⟨rfl, rfl⟩

theorem level_push {pending : Pending} (h : pending.isCall = false) (focus : Focus) :
    Level stack s ⟨focus, pending :: stack, s⟩ :=
  ⟨rfl, List.countP_cons_of_neg (by simp [h])⟩

theorem countP_call (entry : Overload) (caller : Scope) (line : Nat) :
    (Pending.call entry caller line :: stack).countP Pending.isCall =
      stack.countP Pending.isCall + 1 :=
  List.countP_cons_of_pos rfl

theorem level_given {α : Type} {found : Except EvalError α} {next : α → Machine}
    (h : ∀ a, Level stack s (next a)) : Level stack s (given found stack s next) := by
  cases found with
  | ok a => exact h a
  | error e => exact level_here _

theorem level_nextArgument (name : String) (before : List Value) (line : Nat)
    (behind : List Node) : Level stack s (nextArgument name before line stack s behind) := by
  cases behind with
  | nil => exact level_given fun entry => level_here _
  | cons n behind => exact level_push rfl _

theorem level_nextStatement (result : Option Value) (behind : List Node) :
    Level stack s (nextStatement result stack s behind) := by
  cases behind with
  | nil => exact level_here _
  | cons n behind => exact level_push rfl _

theorem level_nextRun (body : Node) (last : Option Value) (count : Nat) :
    Level stack s (nextRun body last stack s count) := by
  cases count with
  | zero => exact level_here _
  | succ count => exact level_push rfl _

theorem level_declare (type : Option ValueType) (value : Option Value) (names : List String)
    (line : Nat) : Level stack s (declare type value names line stack s) := by
  obtain ⟨t, ht, hdepth⟩ := declareAll_ok type value line names s
  rw [declare, Eval.after, ht]
  exact ⟨hdepth, rfl⟩

theorem level_take (n : Node) : Level stack s (take stack s n) := by
  match n with
  | .literal .. | .noOp .. | .returning .. => exact level_here _
  | .negation .. | .binary .. | .branch .. | .loop .. | .print .. | .typeOf .. =>
    exact level_push rfl _
  | .variable .. => exact level_given fun v => level_here _
  | .assignment target value line =>
    cases target with
    | «variable» => exact level_given fun v => level_push rfl _
    | _ => exact level_here _
  | .declaration declared names initializer line =>
    apply level_given
    intro type
    cases initializer with
    | none => exact level_declare type none names line
    | some n => exact level_push rfl _
  | .block statements line => exact level_nextStatement none statements
  | .function .. => exact level_given fun entry => level_given fun registry => ⟨rfl, rfl⟩
  | .call name arguments line => exact level_nextArgument name [] line arguments

theorem level_apply (v : Value) (use : Use) : Level stack s (apply v stack s use) := by
  cases use with
  | negation | rightOperand => exact level_given fun entry => level_here _
  | leftOperand => exact level_push rfl _
  | assignment => exact level_given fun fitted => level_given fun scope => ⟨rfl, rfl⟩
  | declaration type names line => exact level_declare type (some v) names line
  | condition thenBody elseBody line =>
    cases v with
    | bool b =>
      cases b with
      | true => exact level_here _
      | false => cases elseBody <;> exact level_here _
    | _ => exact level_here _
  | loopCount body line =>
    cases v with
    | int n => exact level_nextRun body none _
    | _ => exact level_here _
  | typeOf => exact level_here _
  | argument name before behind line => exact level_nextArgument name (v :: before) line behind

/-- The calls on the stack are those by which the depth exceeds `d`, and there are not too many. -/
structure Balanced (d : Nat) (m : Machine) : Prop where
  depth : m.state.depth = d + m.calls
  bounded : m.state.depth ≤ callLimit

theorem Balanced.of_level {d : Nat} {focus : Focus} {m : Machine}
    (h : Balanced d ⟨focus, stack, s⟩) (hlevel : Level stack s m) : Balanced d m := by
  have hdepth : s.depth = d + stack.countP Pending.isCall := h.depth
  have hbounded : s.depth ≤ callLimit := h.bounded
  constructor
  · rw [hlevel.depth, hlevel.calls, hdepth]
  · rw [hlevel.depth]
    exact hbounded

theorem Balanced.call {d : Nat} {entry : Overload} {args : List Value} {line : Nat}
    (h : Balanced d ⟨.call entry args line, stack, s⟩) :
    Balanced d (call entry args line stack s) := by
  unfold Machine.call
  cases entry.body with
  | native f => exact h.of_level (level_given fun v => level_here _)
  | user params body =>
    by_cases hlimit : callLimit ≤ s.depth
    · simp only [hlimit, ↓reduceIte]
      exact h.of_level (level_here _)
    · simp only [hlimit, ↓reduceIte]
      cases Scope.empty.bind line params entry.params args with
      | error e => exact h.of_level (level_here _)
      | ok frame =>
        have hdepth : s.depth = d + stack.countP Pending.isCall := h.depth
        have hentered : Balanced d ⟨.node body, .call entry s.scope line :: stack,
            s.entered frame⟩ := by
          constructor
          · simp only [Machine.calls, countP_call, State.entered]
            omega
          · simp only [State.entered]
            omega
        exact hentered

/-- A pending call has made the depth larger by one, so that it can be taken back. -/
theorem Balanced.leave {d : Nat} {focus : Focus} {entry : Overload} {caller : Scope} {line : Nat}
    (h : Balanced d ⟨focus, .call entry caller line :: stack, s⟩) (focus' : Focus) :
    Balanced d ⟨focus', stack, left caller s⟩ := by
  have hbounded : s.depth ≤ callLimit := h.bounded
  have hdepth : s.depth = d + (stack.countP Pending.isCall + 1) := by
    rw [← countP_call]
    exact h.depth
  constructor
  · simp only [Machine.calls, left]
    omega
  · simp only [left]
    omega

theorem Balanced.pop {d : Nat} {focus : Focus} {pending : Pending} {m : Machine}
    (h : Balanced d ⟨focus, pending :: stack, s⟩) (hcall : pending.isCall = false)
    (hlevel : Level stack s m) : Balanced d m := by
  have hpopped : Balanced d ⟨focus, stack, s⟩ := by
    refine ⟨?_, h.bounded⟩
    have hdepth := h.depth
    rwa [Machine.calls, List.countP_cons_of_neg (by simp [hcall])] at hdepth
  exact hpopped.of_level hlevel

theorem Balanced.step {d : Nat} {m : Machine} (h : Balanced d m) : Balanced d m.step := by
  obtain ⟨focus, stack, s⟩ := m
  cases focus with
  | node n => exact h.of_level (level_take n)
  | call entry args line => exact h.call
  | result value =>
    cases stack with
    | nil => exact h
    | cons pending stack =>
      cases pending with
      | value line use =>
        cases value with
        | none => exact h.pop rfl (level_here _)
        | some v => exact h.pop rfl (level_apply v use)
      | statement => exact h.pop rfl (level_nextStatement _ _)
      | again => exact h.pop rfl (level_nextRun _ _ _)
      | print => exact h.pop rfl ⟨rfl, rfl⟩
      | call entry caller line =>
        change Balanced d (given (entry.returned value line) stack (left caller s) _)
        cases entry.returned value line <;> exact h.leave _
  | failure e =>
    cases stack with
    | nil => exact h
    | cons pending stack =>
      cases pending with
      | call entry caller line => exact h.leave _
      | _ => exact h.pop rfl (level_here _)

theorem Balanced.reaches {d : Nat} {m m' : Machine} (h : Balanced d m) (hreaches : Reaches m m') :
    Balanced d m' := by
  obtain ⟨k, rfl⟩ := hreaches
  induction k generalizing m with
  | zero => exact h
  | succ k ih => exact ih h.step

theorem balanced_start (n : Node) {s : State} (hs : s.depth ≤ callLimit) :
    Balanced s.depth (start n s) :=
  ⟨rfl, hs⟩

/-- A call is left while the depth counts it. -/
theorem Balanced.pos {d : Nat} {m : Machine} (h : Balanced d m) {entry : Overload}
    {caller : Scope} {line : Nat} {rest : List Pending}
    (hstack : m.stack = .call entry caller line :: rest) : 0 < m.state.depth := by
  have hdepth := h.depth
  rw [calls, hstack, List.countP_cons_of_pos rfl] at hdepth
  omega

end Machine

/-- Parameters are refused for their names only. -/
theorem Scope.bind_error {names : List String} {types : List ValueType} {values : List Value}
    {s : Scope} {line : Nat} {e : EvalError} (h : s.bind line names types values = .error e) :
    ∃ name, e = .alreadyDeclared name line := by
  induction names generalizing s types values with
  | nil => cases h
  | cons name names ih =>
    cases types with
    | nil => cases h
    | cons type types =>
      cases values with
      | nil => cases h
      | cons value values =>
        rw [Scope.bind] at h
        cases hdeclare : s.declare name ⟨type, value⟩ line with
        | ok t =>
          rw [hdeclare] at h
          exact ih h
        | error e' =>
          rw [hdeclare] at h
          cases h
          unfold Scope.declare at hdeclare
          split at hdeclare
          · cases hdeclare
            exact ⟨name, rfl⟩
          · cases hdeclare

namespace Machine

theorem step_refuses_iff {m : Machine} (hm : m.state.depth ≤ callLimit) {entry : Overload}
    {args : List Value} {line : Nat} (hfocus : m.focus = .call entry args line)
    {params : List String} {body : Node} (hbody : entry.body = .user params body) :
    m.step = ⟨.failure (.callsTooDeep callLimit line), m.stack, m.state⟩ ↔
      m.state.depth = callLimit := by
  have hstep : m.step = call entry args line m.stack m.state := by
    rw [step, hfocus]
  rw [hstep, call, hbody]
  by_cases hlimit : callLimit ≤ m.state.depth
  · simp only [hlimit, ↓reduceIte, true_iff]
    omega
  · simp only [hlimit, ↓reduceIte]
    refine iff_of_false ?_ (by omega)
    intro h
    cases hbind : Scope.empty.bind line params entry.params args with
    | ok frame =>
      rw [hbind] at h
      cases h
    | error e =>
      obtain ⟨name, rfl⟩ := Scope.bind_error hbind
      rw [hbind] at h
      cases h

end Machine

open Machine in
/-- From every state within the limit the machine comes to the result of the evaluation. On the way
the depth never exceeds the limit, it is larger than at the beginning by the calls in progress, so
that there is always one to take back when a call is left, and a call of a user function is refused
in just those states whose depth is the limit. In the end the depth is what it was. -/
theorem evaluation_ends (n : Node) (s : State) (hs : s.depth ≤ callLimit) :
    Reaches (start n s) (settle [] (Eval.node n s)) ∧
      ((Eval.node n).after s).depth = s.depth ∧
      ∀ m, Reaches (start n s) m →
        m.state.depth ≤ callLimit ∧ m.state.depth = s.depth + m.calls ∧
        (∀ entry caller line rest, m.stack = .call entry caller line :: rest →
          0 < m.state.depth) ∧
        ∀ entry args line params body, m.focus = .call entry args line →
          entry.body = .user params body →
          (m.step = ⟨.failure (.callsTooDeep callLimit line), m.stack, m.state⟩ ↔
            m.state.depth = callLimit) := by
  refine ⟨reaches_node n hs, (Evolves.node n s).depth_eq, ?_⟩
  intro m hm
  have hbalanced := (balanced_start n hs).reaches hm
  refine ⟨hbalanced.bounded, hbalanced.depth, ?_, ?_⟩
  · intro entry caller line rest hstack
    exact hbalanced.pos hstack
  · intro entry args line params body hfocus hbody
    exact step_refuses_iff hbalanced.bounded hfocus hbody

/-- A state in which two more calls are allowed, with a function that calls one not yet defined. -/
def pingState : State :=
  { State.initial with
    registry := ⟨Registry.builtins.entries ++
      [⟨"ping", [], .int, .user [] (.block [.returning (.call "pong" [] 1) 1] 1)⟩]⟩
    depth := 126 }

/-- Defines the missing function, by which the two call each other, and calls the first. -/
def pingPong : Node :=
  .block
    [.function "pong" "int" [] (.block [.returning (.call "ping" [] 2) 2] 2) 2,
     .call "ping" [] 3] 2

open Machine in
theorem evaluation_ends_pingPong :
    pingState.depth ≤ callLimit ∧
      (∃ t, Eval.node pingPong pingState = .error (.callsTooDeep callLimit 2) t) ∧
      Reaches (start pingPong pingState) (settle [] (Eval.node pingPong pingState)) ∧
      ((Eval.node pingPong).after pingState).depth = 126 ∧
      ∀ m, Reaches (start pingPong pingState) m →
        m.state.depth ≤ callLimit ∧ m.state.depth = 126 + m.calls := by
  have h := evaluation_ends pingPong pingState (by decide)
  refine ⟨by decide, ⟨_, rfl⟩, h.1, h.2.1, ?_⟩
  intro m hm
  exact ⟨(h.2.2 m hm).1, (h.2.2 m hm).2.1⟩

end ConsoleScript
