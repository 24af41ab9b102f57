import ConsoleScript.Proofs.Evaluation.Account
import ConsoleScript.Proofs.Evaluation.Machine

/-!
# Calls do not see their caller

The body of a function starts with its parameters as the only variables, and the scope of the caller
is back when it ends, however it ends. So a call depends on nothing but the registry and the depth
of the state it is made in, and it changes nothing there but the registry, the log and the printed
lines.
-/

namespace ConsoleScript

theorem Evolves.reports_eq {s t : State} (h : Evolves s t) :
    t.output.reports = s.output.reports := by
  induction h with
  | refl | log | write | declare | assign | register => rfl
  | trans _ _ ihst ihtu => exact ihtu.trans ihst
  | call _ _ ih => exact ih

/-- The state once the registry is this one, and these failures have been logged and these lines
printed since `s`. -/
def State.since (s : State) (registry : Registry) (errors : Array EvalError)
    (lines : Array String) : State :=
  { s with
    registry
    errors := s.errors ++ errors
    output := { s.output with lines := s.output.lines ++ lines } }

/-- The account that goes on from the log and the output of `s`. -/
def Account.after (s : State) : Account :=
  ⟨id, s.errors, s.output⟩

theorem Account.state_after (s t : State) :
    (after s).state t =
      { t with
        errors := s.errors ++ t.errors
        output := ⟨s.output.lines ++ t.output.lines, s.output.reports ++ t.output.reports⟩ } := by
  simp [after, state, Registry.relined_id, EvalError.relined_id]

namespace Eval

variable {α β : Type} {registry : Registry} {depth : Nat}

/-- In states with this registry and at this depth the evaluation has one outcome and one effect,
which is on the registry, the log and the printed lines. -/
def Isolated (registry : Registry) (depth : Nat) (act : Eval α) : Prop :=
  ∃ outcome registry' errors lines, ∀ s : State, s.registry = registry → s.depth = depth →
    act s = ofExcept outcome (s.since registry' errors lines)

theorem isolated_ofExcept (outcome : Except EvalError α) :
    (ofExcept outcome).Isolated registry depth := by
  refine ⟨outcome, registry, #[], #[], ?_⟩
  rintro s rfl -
  simp [State.since]

/-- What follows an isolated evaluation may use its value, but not its state. -/
theorem Isolated.bind_ofExcept {act : Eval α} (h : act.Isolated registry depth)
    (f : α → Except EvalError β) :
    (act >>= fun a => ofExcept (f a)).Isolated registry depth := by
  obtain ⟨outcome, registry', errors, lines, hact⟩ := h
  refine ⟨outcome >>= f, registry', errors, lines, ?_⟩
  intro s hregistry hdepth
  have hs := hact s hregistry hdepth
  cases outcome with
  | ok a => rw [bind_of_ok hs]; rfl
  | error e => rw [bind_of_error hs]; rfl

theorem Isolated.ofExcept_bind {outcome : Except EvalError α} {f : α → Eval β}
    (hf : ∀ a, (f a).Isolated registry depth) :
    (ofExcept outcome >>= f).Isolated registry depth := by
  cases outcome with
  | ok a => exact hf a
  | error e => exact isolated_ofExcept (.error e)

/-- The body is run as from an empty log and an empty output. -/
theorem isolated_inFrame {calls : Nat} (hcalls : calls ≤ callLimit - (depth + 1)) (frame : Scope)
    (body : Node) : (inFrame frame (body.eval (invoke calls))).Isolated registry depth := by
  let fresh : State := ⟨frame, registry, #[], .empty, depth + 1⟩
  have hevolves : Evolves fresh ((body.eval (invoke calls)).after fresh) :=
    body.evolves_eval hcalls rfl
  have hretold (s : State) (hregistry : s.registry = registry) (hdepth : s.depth = depth) :
      body.eval (invoke calls) { s with scope := frame, depth := s.depth + 1 } =
        mirrored id (Account.after s).state id (body.eval (invoke calls) fresh) := by
    have hretells := Node.retells_eval (Account.invokes (a := .after s) calls) body fresh
    rw [Account.state_after] at hretells
    simp only [Account.after, Node.relined_id, EvalError.relined_id] at hretells ⊢
    rw [← hretells]
    subst hregistry hdepth
    simp [fresh, Output.empty]
  -- Back from the frame, nothing is left of the state in which the body ended but these effects.
  have hback (s t : State) (hdepth : s.depth = depth) (ht : Evolves fresh t) :
      { (Account.after s).state t with
        scope := s.scope
        depth := t.depth - 1 } = s.since t.registry t.errors t.output.lines := by
    have hreports : t.output.reports = #[] := ht.reports_eq
    have hdepth' : t.depth = depth + 1 := ht.depth_eq
    rw [Account.state_after, hreports, hdepth', ← hdepth]
    simp [State.since]
  unfold after at hevolves
  cases hrun : body.eval (invoke calls) fresh with
  | ok value t =>
    rw [hrun] at hevolves
    refine ⟨.ok value, t.registry, t.errors, t.output.lines, ?_⟩
    intro s hregistry hdepth
    have hs := hretold s hregistry hdepth
    rw [hrun] at hs
    rw [inFrame, hs, ofExcept, ← hback s t hdepth hevolves]
    rfl
  | error e t =>
    rw [hrun] at hevolves
    refine ⟨.error e, t.registry, t.errors, t.output.lines, ?_⟩
    intro s hregistry hdepth
    have hs := hretold s hregistry hdepth
    rw [hrun] at hs
    rw [inFrame, hs, ofExcept, ← hback s t hdepth hevolves]
    rfl

theorem isolated_invoke (entry : Overload) (args : List Value) (line : Nat) :
    (invoke (callLimit - depth) entry args line).Isolated registry depth := by
  cases hbody : entry.body with
  | native f =>
    rw [invoke_native hbody]
    exact isolated_ofExcept _
  | user params body =>
    cases hcalls : callLimit - depth with
    | zero =>
      rw [invoke_user_zero hbody]
      exact isolated_ofExcept (.error _)
    | succ calls =>
      rw [invoke_user_succ hbody]
      apply Isolated.ofExcept_bind
      intro frame
      exact (isolated_inFrame (by omega) frame body).bind_ofExcept _

end Eval

theorem call_isolated (s t : State) (hregistry : s.registry = t.registry)
    (hdepth : s.depth = t.depth) (entry : Overload) (args : List Value) (line : Nat) :
    ∃ outcome registry errors lines,
      invoke (callLimit - s.depth) entry args line s =
        Eval.ofExcept outcome (s.since registry errors lines) ∧
      invoke (callLimit - t.depth) entry args line t =
        Eval.ofExcept outcome (t.since registry errors lines) := by
  have hcall : (invoke (callLimit - s.depth) entry args line).Isolated s.registry s.depth :=
    Eval.isolated_invoke entry args line
  obtain ⟨outcome, registry, errors, lines, h⟩ := hcall
  refine ⟨outcome, registry, errors, lines, h s rfl rfl, ?_⟩
  rw [← hdepth]
  exact h t hregistry.symm hdepth.symm

/-- Prints its argument, fails to declare it again, defines a function and gives the argument
back. -/
def echo : Overload :=
  ⟨"echo", [.int], .int, .user ["n"] (.block
    [.print (.variable "n" 1) 1,
     .declaration .inferred ["n"] (some (.literal (.int 5) 2)) 2,
     .function "extra" "void" [] (.noOp 3) 3,
     .returning (.variable "n" 4) 4] 1)⟩

/-- A caller with a variable, a logged failure and a printed line of its own. -/
def busyState : State :=
  { State.initial with
    scope := ⟨[("n", ⟨.int, .int 1⟩)]⟩
    errors := #[.divisionByZero 9]
    output := ⟨#["before"], #[]⟩ }

theorem call_isolated_echo :
    State.initial.registry = busyState.registry ∧ State.initial.depth = busyState.depth ∧
      (∃ registry, invoke (callLimit - busyState.depth) echo [.int 7] 5 busyState =
        .ok (.int 7) (busyState.since registry #[.alreadyDeclared "n" 2] #["7"])) ∧
      ∃ outcome registry errors lines,
        invoke (callLimit - State.initial.depth) echo [.int 7] 5 State.initial =
          Eval.ofExcept outcome (State.initial.since registry errors lines) ∧
        invoke (callLimit - busyState.depth) echo [.int 7] 5 busyState =
          Eval.ofExcept outcome (busyState.since registry errors lines) :=
  ⟨rfl, rfl, ⟨_, rfl⟩, call_isolated State.initial busyState rfl rfl echo [.int 7] 5⟩

end ConsoleScript
