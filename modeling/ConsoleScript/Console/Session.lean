import ConsoleScript.Evaluation.Evaluator
import ConsoleScript.Syntax.Statement

/-!
# Sessions

A session runs one text after the other in one state, so that later texts see the variables and
functions of earlier ones. A text that does not parse is not run at all.
-/

namespace ConsoleScript

namespace Session

def run (text : String) : StateM State (Except ParseError (Option Value)) := do
  modify State.clearErrors
  match parse Vocabulary.console text with
  | .error e => return .error e
  | .ok tree => return .ok (← Eval.unit tree)

def succeeded (s : State) : Bool :=
  s.errors.isEmpty

end Session

inductive Failure where
  | parsing (e : ParseError)
  | evaluation (e : EvalError)

namespace Failure

def message : Failure → String
  | parsing e => e.message
  | evaluation e => e.message

end Failure

/-- The value of a text that is run on its own, with the lines that it prints. The first failure of
any kind takes the place of the value. -/
def evaluate (text : String) : Except Failure (Option Value) × Array String :=
  match Session.run text State.initial with
  | (.error e, s) => (.error (.parsing e), s.output.lines)
  | (.ok value, s) =>
    match s.errors[0]? with
    | some e => (.error (.evaluation e), s.output.lines)
    | none => (.ok value, s.output.lines)

end ConsoleScript
