import ConsoleScript.Proofs.Evaluation.CallDepth
import ConsoleScript.Proofs.Evaluation.Failures
import ConsoleScript.Proofs.Syntax.Shape

/-!
# Runs of parsed trees

Where a machine starts with a parsed tree, and with functions whose bodies were parsed, it goes on
with nothing but parsed trees. A part of the stack that needs a value waits for an expression, and
expressions have values. A builtin function gets arguments of the types it is registered for, with
one exception: the operator `*` repeats a string whatever is on its right.
-/

namespace ConsoleScript

/-! ### Functions -/

/-- The function is builtin, or it was defined by a parsed tree. -/
structure Overload.Regular (entry : Overload) : Prop where
  native : ∀ f, entry.body = .native f → entry ∈ Registry.builtins.entries
  user : ∀ params body, entry.body = .user params body → params.Nodup ∧ body.IsStatement

def Registry.Regular (r : Registry) : Prop :=
  ∀ entry ∈ r.entries, entry.Regular

theorem Registry.regular_builtins : Registry.builtins.Regular := by
  intro entry hentry
  refine ⟨fun _ _ => hentry, ?_⟩
  intro params body hbody
  obtain ⟨f, hf⟩ := builtins_native entry hentry
  cases hf.symm.trans hbody

theorem parameterTypes_nodup {params : List Parameter} {line : Nat} {seen : List String}
    {types : List ValueType} (h : parameterTypes line seen params = .ok types) :
    (params.map (·.name)).Nodup ∧ ∀ param ∈ params, param.name ∉ seen := by
  induction params generalizing seen types with
  | nil => exact ⟨.nil, List.forall_mem_nil _⟩
  | cons param params ih =>
    obtain ⟨type, _, h⟩ := bind_eq_ok.mp h
    split at h
    · cases h
    · rename_i hfresh
      obtain ⟨rest, hrest, h⟩ := bind_eq_ok.mp h
      obtain ⟨hnodup, hseen⟩ := ih hrest
      constructor
      · refine List.nodup_cons.mpr ⟨?_, hnodup⟩
        intro hmem
        obtain ⟨other, hother, hname⟩ := List.mem_map.mp hmem
        exact hseen other hother (by rw [hname]; exact List.mem_cons_self)
      · refine List.forall_mem_cons.mpr ⟨?_, ?_⟩
        · simpa using hfresh
        · intro other hother hmem
          exact hseen other hother (List.mem_cons_of_mem _ hmem)

theorem Registry.Regular.register {r r' : Registry} (hr : r.Regular) {name returnType : String}
    {params : List Parameter} {body : Node} {line : Nat} {entry : Overload}
    (hbody : body.IsStatement)
    (hentry : Overload.ofDefinition name returnType params body line = .ok entry)
    (hnew : r.register entry line = .ok r') : r'.Regular := by
  intro other hother
  rw [Registry.entries_register hnew] at hother
  rcases List.mem_append.mp hother with hother | hother
  · exact hr other hother
  · rw [List.mem_singleton.mp hother]
    obtain ⟨returns, _, hentry⟩ := bind_eq_ok.mp hentry
    obtain ⟨types, htypes, hentry⟩ := bind_eq_ok.mp hentry
    cases hentry
    constructor
    · rintro f ⟨⟩
    · rintro params body ⟨⟩
      exact ⟨(parameterTypes_nodup htypes).1, hbody⟩

/-- Parameters of different names can be bound. -/
theorem Scope.bind_of_nodup {names : List String} (hnames : names.Nodup) {s : Scope}
    (hnew : ∀ name ∈ names, s.contains name = false) (types : List ValueType)
    (values : List Value) (line : Nat) : ∃ frame, s.bind line names types values = .ok frame := by
  induction names generalizing s types values with
  | nil => exact ⟨s, rfl⟩
  | cons name names ih =>
    cases types with
    | nil => exact ⟨s, rfl⟩
    | cons type types =>
      cases values with
      | nil => exact ⟨s, rfl⟩
      | cons value values =>
        obtain ⟨hname, hnames⟩ := List.nodup_cons.mp hnames
        obtain ⟨hfree, hothers⟩ := List.forall_mem_cons.mp hnew
        have hdeclare : s.declare name ⟨type, value⟩ line =
            .ok ⟨(name, ⟨type, value⟩) :: s.bindings⟩ := by
          rw [declare, if_neg (by simp [hfree])]
        rw [bind, hdeclare]
        refine ih hnames ?_ types values
        intro other hother
        have hne : other ≠ name := by
          rintro rfl
          exact hname hother
        rw [contains, find?_declare hdeclare, if_neg hne]
        exact hothers other hother

/-! ### Machines -/

/-- The part on top of the stack cannot do without a value. -/
def needsValue : List Pending → Bool
  | .value _ _ :: _ => true
  | _ => false

inductive Use.Regular (stack : List Pending) : Use → Prop where
  | negation {line : Nat} : Regular stack (.negation line)
  | leftOperand {op : BinaryOperator} {right : Node} {line : Nat} (h : right.IsExpression) :
      Regular stack (.leftOperand op right line)
  | rightOperand {left : Value} {op : BinaryOperator} {line : Nat} :
      Regular stack (.rightOperand left op line)
  | assignment {name : String} {type : ValueType} {line : Nat} (hneeds : needsValue stack = false) :
      Regular stack (.assignment name type line)
  | declaration {type : Option ValueType} {names : List String} {line : Nat}
      (hneeds : needsValue stack = false) : Regular stack (.declaration type names line)
  | condition {thenBody : Node} {elseBody : Option Node} {line : Nat}
      (hneeds : needsValue stack = false) (hthen : thenBody.IsStatement)
      (helse : ∀ n ∈ elseBody, n.IsStatement) :
      Regular stack (.condition thenBody elseBody line)
  | loopCount {body : Node} {line : Nat} (hneeds : needsValue stack = false)
      (hbody : body.IsStatement) : Regular stack (.loopCount body line)
  | typeOf : Regular stack .typeOf
  | argument {name : String} {before : List Value} {behind : List Node} {line : Nat}
      (h : ∀ n ∈ behind, n.IsExpression) : Regular stack (.argument name before behind line)

/-- What is pending goes on with parsed trees, and gives a value where one is needed. -/
inductive Pending.Regular : List Pending → Prop where
  | nil : Regular []
  | value {line : Nat} {use : Use} {stack : List Pending} (huse : use.Regular stack)
      (hstack : Regular stack) : Regular (.value line use :: stack)
  | statement {result : Option Value} {returning : Bool} {behind : List Node}
      {stack : List Pending} (hneeds : needsValue stack = false)
      (hbehind : ∀ n ∈ behind, n.IsStatement) (hstack : Regular stack) :
      Regular (.statement result returning behind :: stack)
  | again {body : Node} {count : Nat} {stack : List Pending} (hneeds : needsValue stack = false)
      (hbody : body.IsStatement) (hstack : Regular stack) : Regular (.again body count :: stack)
  | print {stack : List Pending} (hneeds : needsValue stack = false) (hstack : Regular stack) :
      Regular (.print :: stack)
  | call {entry : Overload} {caller : Scope} {line : Nat} {stack : List Pending}
      (hstack : Regular stack) : Regular (.call entry caller line :: stack)

/-- What the machine may look at. `Repeats` says for which lines and types a string was to be
repeated by something else than an int. -/
inductive Focus.Regular (Repeats : Nat → ValueType → Prop) (stack : List Pending) (r : Registry) :
    Focus → Prop where
  | expression {n : Node} (h : n.IsExpression) : Regular Repeats stack r (.node n)
  | statement {n : Node} (h : n.IsStatement) (hneeds : needsValue stack = false) :
      Regular Repeats stack r (.node n)
  | call {entry : Overload} {args : List Value} {line : Nat} (hmem : entry ∈ r.entries)
      (hargs : entry.params = args.map Value.type) : Regular Repeats stack r (.call entry args line)
  | callAny {entry : Overload} {text : String} {right : Value} {line : Nat}
      (hmem : entry ∈ r.entries) (hparams : entry.params = [.string, .object])
      (hrepeats : entry.name = BinaryOperator.multiply.functionName → right.type ≠ .int →
        Repeats line right.type) :
      Regular Repeats stack r (.call entry [.string text, right] line)
  | value {v : Value} : Regular Repeats stack r (.result (some v))
  | result {value : Option Value} (hneeds : needsValue stack = false) :
      Regular Repeats stack r (.result value)
  | plain {e : EvalError} (h : e.IsPlain) : Regular Repeats stack r (.failure e)
  | repetition {found : ValueType} {line : Nat} (h : Repeats line found) :
      Regular Repeats stack r (.failure (.operands (.notRepeatable found) line))

theorem Focus.Regular.mem {Repeats : Nat → ValueType → Prop} {stack : List Pending} {r : Registry}
    {entry : Overload} {args : List Value} {line : Nat}
    (h : Focus.Regular Repeats stack r (.call entry args line)) : entry ∈ r.entries := by
  cases h with
  | call hmem _ => exact hmem
  | callAny hmem _ _ => exact hmem

/-- The parameters of a user function can be bound, whatever the arguments are. -/
theorem Registry.Regular.bind {r : Registry} (hr : r.Regular) {entry : Overload}
    (hmem : entry ∈ r.entries) {params : List String} {body : Node}
    (hbody : entry.body = .user params body) (args : List Value) (line : Nat) :
    ∃ frame, Scope.empty.bind line params entry.params args = .ok frame :=
  Scope.bind_of_nodup ((hr entry hmem).user params body hbody).1 (fun _ _ => rfl) _ args line

/-- The functions are regular, and only plain failures have been logged since the `earlier` ones. -/
structure State.Regular (earlier : Array EvalError) (s : State) : Prop where
  registry : s.registry.Regular
  log : ∀ e ∈ s.errors, e ∈ earlier ∨ e.IsPlain

theorem State.Regular.log_plain {earlier : Array EvalError} {s : State} (hs : s.Regular earlier)
    {e : EvalError} (he : e.IsPlain) : (s.log e).Regular earlier := by
  refine ⟨hs.registry, ?_⟩
  intro e' he'
  rcases Array.mem_push.mp he' with he' | rfl
  · exact hs.log e' he'
  · exact .inr he

theorem State.Regular.declareAll {earlier : Array EvalError} {s : State} (hs : s.Regular earlier)
    (type : Option ValueType) (value : Option Value) (line : Nat) (names : List String) :
    ((Eval.declareAll type value line names).after s).Regular earlier := by
  induction names generalizing s with
  | nil => exact hs
  | cons name names ih =>
    rw [Eval.after, Eval.declareAll, get_bind]
    cases hnew : s.scope.declareInitial name type value line with
    | ok scope => exact ih (s := { s with scope }) ⟨hs.registry, hs.log⟩
    | error e => exact ih (hs.log_plain (FailsPlainly.declareInitial _ _ _ _ _ e hnew))

namespace Machine

structure Regular (Repeats : Nat → ValueType → Prop) (earlier : Array EvalError) (m : Machine) :
    Prop where
  focus : m.focus.Regular Repeats m.stack m.state.registry
  stack : Pending.Regular m.stack
  state : m.state.Regular earlier

/-- The machine has both operands of `*`, a string on the left and a value that is no int on the
right. -/
def AtRepetition (m : Machine) (line : Nat) (found : ValueType) : Prop :=
  ∃ text right place stack, m.focus = .result (some right) ∧
    m.stack = .value place (.rightOperand (.string text) .multiply line) :: stack ∧
    right.type = found ∧ found ≠ .int

section

variable {Repeats : Nat → ValueType → Prop} {earlier : Array EvalError} {stack : List Pending}
  {s : State} (hstack : Pending.Regular stack) (hs : s.Regular earlier)

include hstack hs

theorem regular_given {α : Type} {found : Except EvalError α} {next : α → Machine}
    (hfound : FailsPlainly found)
    (hnext : ∀ a, found = .ok a → Regular Repeats earlier (next a)) :
    Regular Repeats earlier (given found stack s next) := by
  cases found with
  | ok a => exact hnext a rfl
  | error e => exact ⟨.plain (hfound e rfl), hstack, hs⟩

theorem regular_nextArgument (name : String) (before : List Value) (line : Nat)
    {behind : List Node} (hbehind : ∀ n ∈ behind, n.IsExpression) :
    Regular Repeats earlier (nextArgument name before line stack s behind) := by
  cases behind with
  | nil =>
    apply regular_given hstack hs (.resolveCall _ _ _ line)
    intro entry hentry
    obtain ⟨hmem, hparams⟩ := resolve_ok hentry
    exact ⟨.call hmem hparams, hstack, hs⟩
  | cons n behind =>
    obtain ⟨hn, hbehind⟩ := List.forall_mem_cons.mp hbehind
    exact ⟨.expression hn, .value (.argument hbehind) hstack, hs⟩

theorem regular_nextStatement (hneeds : needsValue stack = false) (result : Option Value)
    {behind : List Node} (hbehind : ∀ n ∈ behind, n.IsStatement) :
    Regular Repeats earlier (nextStatement result stack s behind) := by
  cases behind with
  | nil => exact ⟨.result hneeds, hstack, hs⟩
  | cons n behind =>
    obtain ⟨hn, hbehind⟩ := List.forall_mem_cons.mp hbehind
    exact ⟨.statement hn rfl, .statement hneeds hbehind hstack, hs⟩

theorem regular_nextRun (hneeds : needsValue stack = false) {body : Node}
    (hbody : body.IsStatement) (last : Option Value) (count : Nat) :
    Regular Repeats earlier (nextRun body last stack s count) := by
  cases count with
  | zero => exact ⟨.result hneeds, hstack, hs⟩
  | succ count => exact ⟨.statement hbody rfl, .again hneeds hbody hstack, hs⟩

theorem regular_declare (hneeds : needsValue stack = false) (type : Option ValueType)
    (value : Option Value) (names : List String) (line : Nat) :
    Regular Repeats earlier (declare type value names line stack s) :=
  ⟨.result hneeds, hstack, hs.declareAll type value line names⟩

/-! #### One step -/

theorem regular_take_expression {n : Node} (hn : n.IsExpression) :
    Regular Repeats earlier (take stack s n) := by
  cases hn with
  | literal => exact ⟨.value, hstack, hs⟩
  | «variable» => exact regular_given hstack hs (.get _ _ _) fun v _ => ⟨.value, hstack, hs⟩
  | negation h => exact ⟨.expression h, .value .negation hstack, hs⟩
  | binary hleft hright => exact ⟨.expression hleft, .value (.leftOperand hright) hstack, hs⟩
  | call h => exact regular_nextArgument hstack hs _ [] _ h

theorem regular_take_statement {n : Node} (hn : n.IsStatement)
    (hneeds : needsValue stack = false) : Regular Repeats earlier (take stack s n) := by
  cases hn with
  | expression h => exact regular_take_expression hstack hs h
  | assignment h =>
    apply regular_given hstack hs (.get _ _ _)
    intro v _
    exact ⟨.expression h, .value (.assignment hneeds) hstack, hs⟩
  | @declaration declared names initializer line h =>
    apply regular_given hstack hs (.resolve _ _)
    intro type _
    cases initializer with
    | none => exact regular_declare hstack hs hneeds type none names line
    | some n => exact ⟨.expression (h n rfl), .value (.declaration hneeds) hstack, hs⟩
  | block h => exact regular_nextStatement hstack hs hneeds none h
  | branch hcondition hthen helse =>
    exact ⟨.expression hcondition, .value (.condition hneeds hthen helse) hstack, hs⟩
  | loop hcount hbody => exact ⟨.expression hcount, .value (.loopCount hneeds hbody) hstack, hs⟩
  | print h => exact ⟨.expression h, .print hneeds hstack, hs⟩
  | typeOf h => exact ⟨.expression h, .value .typeOf hstack, hs⟩
  | returning h => exact ⟨.expression h, hstack, hs⟩
  | function hbody =>
    apply regular_given hstack hs (.ofDefinition _ _ _ _ _)
    intro entry hentry
    apply regular_given hstack hs (.register _ _ _)
    intro registry hnew
    exact ⟨.result hneeds, hstack, hs.registry.register hbody hentry hnew, hs.log⟩
  | noOp => exact ⟨.result hneeds, hstack, hs⟩

theorem regular_apply {v : Value} {place : Nat} {use : Use} (huse : use.Regular stack)
    (hrepeats : ∀ line found,
      AtRepetition ⟨.result (some v), .value place use :: stack, s⟩ line found →
        Repeats line found) :
    Regular Repeats earlier (apply v stack s use) := by
  cases huse with
  | negation =>
    apply regular_given hstack hs (.resolveCall _ _ _ _)
    intro entry hentry
    obtain ⟨hmem, hparams⟩ := resolve_ok hentry
    exact ⟨.call hmem hparams, hstack, hs⟩
  | leftOperand h => exact ⟨.expression h, .value .rightOperand hstack, hs⟩
  | @rightOperand left op line =>
    apply regular_given hstack hs (.resolveOperator _ _ _ _ _)
    intro entry hentry
    obtain ⟨hmem, hname, hparams | ⟨hleft, hparams⟩⟩ := resolveOperator_ok hentry
    · exact ⟨.call hmem hparams, hstack, hs⟩
    · cases left <;> cases hleft
      refine ⟨.callAny hmem hparams ?_, hstack, hs⟩
      intro hmultiply hint
      have hop : op = .multiply := by
        rw [hname] at hmultiply
        cases op with
        | multiply => rfl
        | _ => exact absurd hmultiply (by decide)
      subst hop
      exact hrepeats line v.type ⟨_, v, place, stack, rfl, rfl, rfl, hint⟩
  | assignment hneeds =>
    apply regular_given hstack hs (.fitDeclared _ _ _)
    intro fitted _
    apply regular_given hstack hs (.assign _ _ _ _)
    intro scope _
    exact ⟨.result hneeds, hstack, hs.registry, hs.log⟩
  | declaration hneeds => exact regular_declare hstack hs hneeds _ _ _ _
  | @condition thenBody elseBody line hneeds hthen helse =>
    cases v with
    | bool b =>
      cases b with
      | true => exact ⟨.statement hthen hneeds, hstack, hs⟩
      | false =>
        cases elseBody with
        | none => exact ⟨.result hneeds, hstack, hs⟩
        | some n => exact ⟨.statement (helse n rfl) hneeds, hstack, hs⟩
    | _ => exact ⟨.plain rfl, hstack, hs⟩
  | loopCount hneeds hbody =>
    cases v with
    | int n => exact regular_nextRun hstack hs hneeds hbody none _
    | _ => exact ⟨.plain rfl, hstack, hs⟩
  | typeOf => exact ⟨.value, hstack, hs⟩
  | argument h => exact regular_nextArgument hstack hs _ _ _ h

theorem regular_native {entry : Overload} {f : Builtin} {args : List Value} {line : Nat}
    (h : Focus.Regular Repeats stack s.registry (.call entry args line))
    (hbody : entry.body = .native f) :
    Regular Repeats earlier (given (f.apply args line) stack s fun v =>
      ⟨.result (some v), stack, s⟩) := by
  have hentry := (hs.registry entry h.mem).native f hbody
  cases h with
  | call _ hargs =>
    exact regular_given hstack hs (native_failsPlainly hentry hbody hargs line) fun v _ =>
      ⟨.value, hstack, hs⟩
  | @callAny _ text right line _ hparams hrepeats =>
    cases happly : f.apply [.string text, right] line with
    | ok v => exact ⟨.value, hstack, hs⟩
    | error e =>
      rcases native_any_failure hentry hbody hparams happly with hplain | ⟨hname, hint, rfl⟩
      · exact ⟨.plain hplain, hstack, hs⟩
      · exact ⟨.repetition (hrepeats hname hint), hstack, hs⟩

theorem regular_call {entry : Overload} {args : List Value} {line : Nat}
    (h : Focus.Regular Repeats stack s.registry (.call entry args line)) :
    Regular Repeats earlier (call entry args line stack s) := by
  unfold Machine.call
  cases hbody : entry.body with
  | native f => exact regular_native hstack hs h hbody
  | user params body =>
    by_cases hlimit : callLimit ≤ s.depth
    · simp only [hlimit, ↓reduceIte]
      exact ⟨.plain rfl, hstack, hs⟩
    · simp only [hlimit, ↓reduceIte]
      obtain ⟨frame, hframe⟩ := hs.registry.bind h.mem hbody args line
      rw [hframe]
      have hstatement := ((hs.registry entry h.mem).user params body hbody).2
      exact ⟨.statement hstatement rfl, .call hstack, hs.registry, hs.log⟩

end

variable {Repeats : Nat → ValueType → Prop} {earlier : Array EvalError}

theorem Regular.resume {value : Option Value} {pending : Pending} {stack : List Pending} {s : State}
    (h : Regular Repeats earlier ⟨.result value, pending :: stack, s⟩)
    (hrepeats : ∀ line found, AtRepetition ⟨.result value, pending :: stack, s⟩ line found →
      Repeats line found) : Regular Repeats earlier (resume value stack s pending) := by
  obtain ⟨hfocus, hpending, hs⟩ := h
  cases hpending with
  | @value line use _ huse hstack =>
    cases hfocus with
    | value => exact regular_apply hstack hs huse hrepeats
    | result hneeds => cases hneeds
  | statement hneeds hbehind hstack => exact regular_nextStatement hstack hs hneeds _ hbehind
  | again hneeds hbody hstack => exact regular_nextRun hstack hs hneeds hbody value _
  | print hneeds hstack => exact ⟨.result hneeds, hstack, hs.registry, hs.log⟩
  | @call entry caller line _ hstack =>
    have hleft : (left caller s).Regular earlier := ⟨hs.registry, hs.log⟩
    exact regular_given hstack hleft (.returned entry value line) fun v _ => ⟨.value, hstack, hleft⟩

theorem Regular.unwind {e : EvalError} {pending : Pending} {stack : List Pending} {s : State}
    (h : Regular Repeats earlier ⟨.failure e, pending :: stack, s⟩) :
    Regular Repeats earlier (unwind e stack s pending) := by
  obtain ⟨hfocus, hpending, hs⟩ := h
  have hfailure {stack : List Pending} : Focus.Regular Repeats stack s.registry (.failure e) := by
    cases hfocus with
    | plain h => exact .plain h
    | repetition h => exact .repetition h
  cases hpending with
  | call hstack => exact ⟨hfailure, hstack, hs.registry, hs.log⟩
  | value _ hstack => exact ⟨hfailure, hstack, hs⟩
  | statement _ _ hstack => exact ⟨hfailure, hstack, hs⟩
  | again _ _ hstack => exact ⟨hfailure, hstack, hs⟩
  | print _ hstack => exact ⟨hfailure, hstack, hs⟩

theorem Regular.step {m : Machine} (h : Regular Repeats earlier m)
    (hrepeats : ∀ line found, m.AtRepetition line found → Repeats line found) :
    Regular Repeats earlier m.step := by
  obtain ⟨focus, stack, s⟩ := m
  cases focus with
  | node n =>
    cases h.focus with
    | expression hn => exact regular_take_expression h.stack h.state hn
    | statement hn hneeds => exact regular_take_statement h.stack h.state hn hneeds
  | call entry args line => exact regular_call h.stack h.state h.focus
  | result value =>
    cases stack with
    | nil => exact h
    | cons pending stack => exact h.resume hrepeats
  | failure e =>
    cases stack with
    | nil => exact h
    | cons pending stack => exact h.unwind

/-- Some machine on the way from `m` has the operands of a repetition by something else than an
int. -/
def MeetsRepetition (m : Machine) (line : Nat) (found : ValueType) : Prop :=
  ∃ m', Reaches m m' ∧ m'.AtRepetition line found

theorem Regular.reaches {m m' : Machine} (h : Regular m.MeetsRepetition earlier m)
    (hreaches : Reaches m m') : Regular m.MeetsRepetition earlier m' := by
  obtain ⟨k, rfl⟩ := hreaches
  induction k with
  | zero => exact h
  | succ k ih =>
    rw [Function.iterate_succ_apply']
    exact ih.step fun line found hrepetition => ⟨_, ⟨k, rfl⟩, hrepetition⟩

theorem regular_start {n : Node} (hn : n.IsStatement) {s : State} (hs : s.registry.Regular) :
    Regular Repeats s.errors (start n s) :=
  ⟨.statement hn rfl, .nil, hs, fun _ he => .inl he⟩

end Machine

end ConsoleScript
