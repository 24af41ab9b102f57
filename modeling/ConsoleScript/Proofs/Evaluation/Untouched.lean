import ConsoleScript.Proofs.Evaluation.Evolution
import ConsoleScript.Proofs.Syntax.Stream

/-!
# Variables that an evaluation does not touch

Only an assignment changes a variable, and only one to its name. Declarations of a name that is
taken are refused, and a call works on the variables of its frame, whatever their names, before it
gives back the scope of the caller. So a variable to which a tree does not assign is the same after
the tree has been evaluated, or has failed anywhere in between.
-/

namespace ConsoleScript

/-- The variable that an assignment to this node is to. -/
def Node.assignable? : Node → Option String
  | .variable name _ => some name
  | _ => none

mutual

/-- The names of the variables to which a tree assigns. What the bodies of the functions that it
defines assign to is not among them. -/
def Node.targets : Node → List String
  | .literal _ _ | .variable _ _ | .noOp _ | .function _ _ _ _ _ => []
  | .negation operand _ => operand.targets
  | .binary left _ right _ => left.targets ++ right.targets
  | .assignment target value _ => target.assignable?.toList ++ target.targets ++ value.targets
  | .declaration _ _ initializer _ => optionTargets initializer
  | .block statements _ => listTargets statements
  | .branch condition thenBody elseBody _ =>
    condition.targets ++ thenBody.targets ++ optionTargets elseBody
  | .loop count body _ => count.targets ++ body.targets
  | .print expr _ | .typeOf expr _ | .returning expr _ => expr.targets
  | .call _ arguments _ => listTargets arguments

def optionTargets : Option Node → List String
  | none => []
  | some n => n.targets

def listTargets : List Node → List String
  | [] => []
  | n :: ns => n.targets ++ listTargets ns

end

namespace Eval

variable {α β : Type} {name : String} {v : Variable}

/-- If the variable is declared before the evaluation, it is the same after it. -/
def Keeps (name : String) (v : Variable) (act : Eval α) : Prop :=
  ∀ s : State, s.scope.find? name = some v → (act.after s).scope.find? name = some v

theorem keeps_pure (a : α) : (pure a : Eval α).Keeps name v :=
  fun _ hs => hs

theorem keeps_throw (e : EvalError) : (throw e : Eval α).Keeps name v :=
  fun _ hs => hs

theorem keeps_get : (get : Eval State).Keeps name v :=
  fun _ hs => hs

theorem keeps_ofExcept (result : Except EvalError α) : (ofExcept result).Keeps name v := by
  cases result <;> exact fun _ hs => hs

theorem keeps_modify {f : State → State} (h : ∀ s, (f s).scope = s.scope) :
    (modify f : Eval Unit).Keeps name v := by
  intro s hs
  change (f s).scope.find? name = some v
  rw [h]
  exact hs

theorem Keeps.bind {x : Eval α} {f : α → Eval β} (hx : x.Keeps name v)
    (hf : ∀ a, (f a).Keeps name v) : (x >>= f).Keeps name v := by
  intro s hs
  have hxs := hx s hs
  unfold after at hxs ⊢
  cases hrun : x s with
  | ok a t =>
    rw [hrun] at hxs
    rw [bind_of_ok hrun]
    exact hf a t hxs
  | error e t =>
    rw [hrun] at hxs
    rw [bind_of_error hrun]
    exact hxs

theorem Keeps.required {line : Nat} {act : Eval (Option Value)} (h : act.Keeps name v) :
    (required line act).Keeps name v := by
  apply h.bind
  intro value
  cases value with
  | none => exact keeps_throw _
  | some value => exact keeps_pure value

theorem Keeps.times {act : Eval (Option Value)} (h : act.Keeps name v) (last : Option Value)
    (count : Nat) : (times act last count).Keeps name v := by
  induction count generalizing last with
  | zero => exact keeps_pure last
  | succ count ih => exact h.bind ih

/-- A name that is declared already is not declared again. -/
theorem keeps_declareAll (type : Option ValueType) (value : Option Value) (line : Nat)
    (names : List String) : (declareAll type value line names).Keeps name v := by
  induction names with
  | nil => exact keeps_pure ()
  | cons new names ih =>
    intro s hs
    rw [declareAll, after, get_bind]
    cases hnew : s.scope.declareInitial new type value line with
    | error e => exact ih (s.log e) hs
    | ok scope =>
      apply ih { s with scope }
      obtain ⟨hfree, w, _, hdeclare⟩ := declareInitial_ok hnew
      rw [Scope.find?_declare hdeclare, if_neg]
      · exact hs
      · rintro rfl
        simp [Scope.contains, hs] at hfree

theorem keeps_assign {target : String} (htarget : name ≠ target) (value : Value) (line : Nat) :
    (do
      let scope ← ofExcept ((← get).scope.assign target value line)
      modify fun s => { s with scope } : Eval Unit).Keeps name v := by
  intro s hs
  rw [after, get_bind]
  cases hset : s.scope.assign target value line with
  | error e => exact hs
  | ok scope =>
    change scope.find? name = some v
    rw [Scope.find?_assign hset, hs, Option.map_some, if_neg htarget]

theorem keeps_inFrame (frame : Scope) (act : Eval α) : (inFrame frame act).Keeps name v := by
  intro s hs
  unfold after inFrame
  cases act { s with scope := frame, depth := s.depth + 1 } <;> exact hs

end Eval

open Eval

theorem keeps_invoke (calls : Nat) (entry : Overload) (args : List Value) (line : Nat)
    (name : String) (v : Variable) : (invoke calls entry args line).Keeps name v := by
  cases hbody : entry.body with
  | native f =>
    rw [invoke_native hbody]
    exact keeps_ofExcept _
  | user params body =>
    cases calls with
    | zero =>
      rw [invoke_user_zero hbody]
      exact keeps_throw _
    | succ calls =>
      rw [invoke_user_succ hbody]
      exact (keeps_ofExcept _).bind fun frame =>
        (keeps_inFrame frame _).bind fun result => keeps_ofExcept _

namespace Node

variable {invoke : Invoke} {name : String} {v : Variable}

mutual

theorem keeps_eval (hinvoke : ∀ entry args line, (invoke entry args line).Keeps name v) (n : Node)
    (hname : name ∉ n.targets) : (n.eval invoke).Keeps name v := by
  match n with
  | literal value line => exact keeps_pure _
  | noOp line => exact keeps_pure _
  | .variable other line =>
    rw [eval]
    exact keeps_get.bind fun s => (keeps_ofExcept _).bind fun w => keeps_pure _
  | negation operand line =>
    rw [eval]
    rw [targets] at hname
    apply (keeps_eval hinvoke operand hname).required.bind
    intro value
    exact keeps_get.bind fun s => (keeps_ofExcept _).bind fun entry =>
      (hinvoke entry _ line).bind fun w => keeps_pure _
  | binary left op right line =>
    rw [eval]
    simp only [targets, List.mem_append, not_or] at hname
    apply (keeps_eval hinvoke left hname.1).required.bind
    intro a
    apply (keeps_eval hinvoke right hname.2).required.bind
    intro b
    exact keeps_get.bind fun s => (keeps_ofExcept _).bind fun entry =>
      (hinvoke entry _ line).bind fun w => keeps_pure _
  | assignment target value line =>
    simp only [targets, List.mem_append, not_or] at hname
    match target with
    | .variable other _ =>
      rw [eval]
      have hother : name ≠ other := by simpa [assignable?] using hname.1.1
      apply keeps_get.bind
      intro s
      apply (keeps_ofExcept _).bind
      intro w
      apply (keeps_eval hinvoke value hname.2).required.bind
      intro a
      apply (keeps_ofExcept _).bind
      intro fitted
      have hassign := (keeps_assign (v := v) hother fitted line).bind fun _ =>
        keeps_pure (none : Option Value)
      simpa only [bind_assoc] using hassign
    | .literal .. | .negation .. | .binary .. | .assignment .. | .declaration .. | .block ..
    | .branch .. | .loop .. | .print .. | .typeOf .. | .returning .. | .function .. | .call ..
    | .noOp .. => exact keeps_throw _
  | declaration declared names initializer line =>
    rw [eval]
    rw [targets] at hname
    apply (keeps_ofExcept _).bind
    intro type
    apply (keeps_evalInitializer hinvoke initializer hname).bind
    intro value
    exact (keeps_declareAll type value line names).bind fun _ => keeps_pure _
  | block statements line =>
    rw [eval]
    rw [targets] at hname
    exact keeps_evalStatements hinvoke none statements hname
  | branch condition thenBody elseBody line =>
    rw [eval]
    simp only [targets, List.mem_append, not_or] at hname
    apply (keeps_eval hinvoke condition hname.1.1).required.bind
    intro value
    split
    · exact keeps_eval hinvoke thenBody hname.1.2
    · exact keeps_evalElse hinvoke elseBody hname.2
    · exact keeps_throw _
  | loop count body line =>
    rw [eval]
    simp only [targets, List.mem_append, not_or] at hname
    apply (keeps_eval hinvoke count hname.1).required.bind
    intro value
    split
    · exact (keeps_eval hinvoke body hname.2).times none _
    · exact keeps_throw _
  | print expr line =>
    rw [eval]
    rw [targets] at hname
    apply (keeps_eval hinvoke expr hname).bind
    intro value
    exact Keeps.bind (keeps_modify fun _ => rfl) fun _ => keeps_pure _
  | typeOf expr line =>
    rw [eval]
    rw [targets] at hname
    exact (keeps_eval hinvoke expr hname).required.bind fun value => keeps_pure _
  | returning expr line =>
    rw [eval]
    rw [targets] at hname
    exact keeps_eval hinvoke expr hname
  | function other returnType params body line =>
    rw [eval]
    apply (keeps_ofExcept _).bind
    intro entry
    apply keeps_get.bind
    intro s
    apply (keeps_ofExcept _).bind
    intro registry
    exact Keeps.bind (keeps_modify fun _ => rfl) fun _ => keeps_pure _
  | call other arguments line =>
    rw [eval]
    rw [targets] at hname
    apply (keeps_evalArguments hinvoke arguments hname).bind
    intro args
    exact keeps_get.bind fun s => (keeps_ofExcept _).bind fun entry =>
      (hinvoke entry args line).bind fun w => keeps_pure _

theorem keeps_evalInitializer (hinvoke : ∀ entry args line, (invoke entry args line).Keeps name v)
    (initializer : Option Node) (hname : name ∉ optionTargets initializer) :
    (evalInitializer invoke initializer).Keeps name v := by
  match initializer with
  | none => exact keeps_pure none
  | some node =>
    rw [evalInitializer, map_eq_pure_bind]
    rw [optionTargets] at hname
    exact (keeps_eval hinvoke node hname).required.bind fun value => keeps_pure _

theorem keeps_evalElse (hinvoke : ∀ entry args line, (invoke entry args line).Keeps name v)
    (elseBody : Option Node) (hname : name ∉ optionTargets elseBody) :
    (evalElse invoke elseBody).Keeps name v := by
  match elseBody with
  | none => exact keeps_pure none
  | some node =>
    rw [evalElse]
    rw [optionTargets] at hname
    exact keeps_eval hinvoke node hname

theorem keeps_evalStatements (hinvoke : ∀ entry args line, (invoke entry args line).Keeps name v)
    (result : Option Value) (nodes : List Node) (hname : name ∉ listTargets nodes) :
    (evalStatements invoke result nodes).Keeps name v := by
  match nodes with
  | [] => exact keeps_pure result
  | node :: nodes =>
    rw [evalStatements]
    simp only [listTargets, List.mem_append, not_or] at hname
    exact (keeps_eval hinvoke node hname.1).bind fun value =>
      keeps_evalStatements hinvoke _ nodes hname.2

theorem keeps_evalArguments (hinvoke : ∀ entry args line, (invoke entry args line).Keeps name v)
    (nodes : List Node) (hname : name ∉ listTargets nodes) :
    (evalArguments invoke nodes).Keeps name v := by
  match nodes with
  | [] => exact keeps_pure []
  | node :: nodes =>
    rw [evalArguments]
    simp only [listTargets, List.mem_append, not_or] at hname
    apply (keeps_eval hinvoke node hname.1).required.bind
    intro value
    exact (keeps_evalArguments hinvoke nodes hname.2).bind fun values => keeps_pure _

end

end Node

theorem variable_untouched (n : Node) (s : State) {name : String} {v : Variable}
    (hv : s.scope.find? name = some v) (hname : name ∉ n.targets) :
    ((Eval.node n).after s).scope.find? name = some v :=
  Node.keeps_eval (fun entry args line => keeps_invoke _ entry args line name v) n hname s hv

/-- Two variables, and a function whose parameter has the name of one of them. -/
def shadowedState : State :=
  { State.initial with
    scope := ⟨[("x", ⟨.int, .int 1⟩), ("y", ⟨.int, .int 0⟩)]⟩
    registry := ⟨Registry.builtins.entries ++
      [⟨"bump", [.int], .int, .user ["x"] (.block
        [.assignment (.variable "x" 1) (.binary (.variable "x" 1) .add (.literal (.int 1) 1) 1) 1,
         .returning (.variable "x" 1) 1] 1)⟩]⟩ }

/-- Calls the function, declares the name again, defines a function that would assign to it, and
fails. -/
def shadowingTree : Node :=
  .block
    [.assignment (.variable "y" 2) (.call "bump" [.variable "x" 2] 2) 2,
     .declaration (.named "int") ["x"] (some (.literal (.int 7) 3)) 3,
     .function "reset" "void" [] (.assignment (.variable "x" 4) (.literal (.int 0) 4) 4) 4,
     .assignment (.variable "y" 5) (.variable "z" 5) 5] 2

theorem variable_untouched_shadowed :
    shadowedState.scope.find? "x" = some ⟨.int, .int 1⟩ ∧ "x" ∉ shadowingTree.targets ∧
      (∃ t, Eval.node shadowingTree shadowedState = .error (.unknownVariable "z" 5) t ∧
        t.scope.find? "y" = some ⟨.int, .int 2⟩) ∧
      ((Eval.node shadowingTree).after shadowedState).scope.find? "x" = some ⟨.int, .int 1⟩ := by
  have hx : shadowedState.scope.find? "x" = some ⟨.int, .int 1⟩ := rfl
  have htargets : "x" ∉ shadowingTree.targets := by decide
  exact ⟨hx, htargets, ⟨_, rfl, rfl⟩, variable_untouched shadowingTree shadowedState hx htargets⟩

end ConsoleScript
