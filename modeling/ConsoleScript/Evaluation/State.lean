import ConsoleScript.Evaluation.Registry
import ConsoleScript.Evaluation.Scope

/-!
# The state of an evaluation

What an evaluation changes: the variables in scope, the functions, the log of failures, the output
and the number of function calls in progress.
-/

namespace ConsoleScript

structure Output where
  lines : Array String
  reports : Array String

namespace Output

def empty : Output :=
  ⟨#[], #[]⟩

end Output

def callLimit : Nat := 128

structure State where
  scope : Scope
  registry : Registry
  errors : Array EvalError
  output : Output
  depth : Nat

namespace State

def initial : State :=
  ⟨.empty, .builtins, #[], .empty, 0⟩

def log (e : EvalError) (s : State) : State :=
  { s with errors := s.errors.push e }

def clearErrors (s : State) : State :=
  { s with errors := #[] }

def write (line : String) (s : State) : State :=
  { s with output := { s.output with lines := s.output.lines.push line } }

def reportMessage (message : String) (s : State) : State :=
  { s with output := { s.output with reports := s.output.reports.push message } }

def report (s : State) : State :=
  s.errors.foldl (fun s e => s.reportMessage e.message) s.clearErrors

end State

/-- An evaluation, whose effects stay also if it fails. -/
abbrev Eval := EStateM EvalError State

namespace Eval

variable {α : Type}

def ofExcept (result : Except EvalError α) : Eval α := fun s =>
  match result with
  | .ok a => .ok a s
  | .error e => .error e s

def orLog (act : Eval (Option α)) : StateM State (Option α) := fun s =>
  match act s with
  | .ok a s => (a, s)
  | .error e s => (none, s.log e)

/-- Runs an evaluation in a scope of its own, one call deeper, and then takes the scope back. -/
def inFrame (frame : Scope) (act : Eval α) : Eval α := fun s =>
  match act { s with scope := frame, depth := s.depth + 1 } with
  | .ok a t => .ok a { t with scope := s.scope, depth := t.depth - 1 }
  | .error e t => .error e { t with scope := s.scope, depth := t.depth - 1 }

def required (line : Nat) (act : Eval (Option Value)) : Eval Value := do
  match ← act with
  | some value => return value
  | none => throw (.missingValue line)

/-- Runs an evaluation `count` times. The value is that of the last run, or `last` if there is no
run. -/
def times (act : Eval (Option Value)) (last : Option Value) : Nat → Eval (Option Value)
  | 0 => return last
  | count + 1 => do times act (← act) count

end Eval

end ConsoleScript
