import ConsoleScript.Console.Program
import ConsoleScript.Proofs.Console.Concatenation
import ConsoleScript.Proofs.Evaluation.Isolation

/-!
# Lines that do not parse

A text that does not parse empties the log of a session and changes nothing else. So where the lines
of an input are run one by one, those that do not parse might as well be missing: the others are run
in the same variables and functions and print the same, and what is reported lacks one message for
each line that is missing.

Every line is run with an empty log, and no evaluation reads what has been reported. `quiet` takes
both from a state, and the runs of an input with and without some lines are compared by it.
-/

namespace ConsoleScript

namespace State

/-- The state with nothing in its log and nothing reported. -/
def quiet (s : State) : State :=
  { s with errors := #[], output := { s.output with reports := #[] } }

/-- The state with something reported before. -/
def behind (reports : Array String) (s : State) : State :=
  { s with output := { s.output with reports := reports ++ s.output.reports } }

theorem quiet_behind (reports : Array String) (s : State) : (s.behind reports).quiet = s.quiet :=
  rfl

theorem fields_of_quiet {s t : State} (h : s.quiet = t.quiet) :
    s.output.lines = t.output.lines ∧ s.scope = t.scope ∧ s.registry = t.registry ∧
      s.depth = t.depth := by
  simp only [quiet, State.mk.injEq, Output.mk.injEq] at h
  obtain ⟨hscope, hregistry, -, ⟨hlines, -⟩, hdepth⟩ := h
  exact ⟨hlines, hscope, hregistry, hdepth⟩

theorem clearErrors_eq_behind (s : State) : s.clearErrors = s.quiet.behind s.output.reports := by
  simp [clearErrors, behind, quiet]

theorem report_eq_append (s : State) :
    s.report = { s with
      errors := #[]
      output := { s.output with
        reports := s.output.reports ++ s.errors.map EvalError.message } } := by
  have hfold : ∀ (errors : List EvalError) (t : State),
      errors.foldl (fun s e => s.reportMessage e.message) t =
        { t with output := { t.output with
          reports := t.output.reports ++ (errors.map EvalError.message).toArray } } := by
    intro errors
    induction errors with
    | nil => simp
    | cons e errors ih =>
      intro t
      rw [List.foldl_cons, ih]
      simp [reportMessage]
  rw [report, ← Array.foldl_toList, hfold, ← Array.toList_map, Array.toArray_toList]
  rfl

theorem quiet_report (s : State) : s.report.quiet = s.quiet := by
  rw [report_eq_append]
  rfl

end State

namespace Eval

theorem statements_behind (reports : Array String) (result : Option Value) (nodes : List Node)
    (s : State) : statements result nodes (s.behind reports) =
      ((statements result nodes s).1, (statements result nodes s).2.behind reports) := by
  have hstate : ∀ t, Account.state ⟨id, #[], ⟨#[], reports⟩⟩ t = t.behind reports := by
    intro t
    simp [Account.state, State.behind, Registry.relined_id, EvalError.relined_id]
  have hretold := Account.statements_relined ⟨id, #[], ⟨#[], reports⟩⟩ result nodes s
  rwa [relinedNodes_id, hstate, hstate] at hretold

theorem unit_behind (reports : Array String) (n : Node) (s : State) :
    unit n (s.behind reports) = ((unit n s).1, (unit n s).2.behind reports) := by
  unfold unit
  split <;> exact statements_behind reports none _ s

theorem unit_clearErrors (n : Node) (s : State) :
    unit n s.clearErrors = ((unit n s.quiet).1, (unit n s.quiet).2.behind s.output.reports) := by
  rw [State.clearErrors_eq_behind, unit_behind]

/-- A unit reports nothing itself. -/
theorem reports_unit_quiet (n : Node) (s : State) : (unit n s.quiet).2.output.reports = #[] :=
  (Evolves.unit n s.quiet).reports_eq

end Eval

namespace Session

theorem run_of_parse_error {text : String} {e : ParseError}
    (h : parse Vocabulary.console text = .error e) (s : State) :
    run text s = (.error e, s.clearErrors) := by
  unfold run
  rw [h]
  rfl

theorem run_of_parse_ok {text : String} {tree : Node}
    (h : parse Vocabulary.console text = .ok tree) (s : State) :
    run text s = (.ok (Eval.unit tree s.clearErrors).1, (Eval.unit tree s.clearErrors).2) := by
  unfold run
  rw [h]
  rfl

/-- The text parses, and nothing fails when it is run. -/
def Succeeds (text : String) (s : State) : Prop :=
  ∃ value t, run text s = (.ok value, t) ∧ t.errors = #[]

end Session

theorem stateM_bind {σ α β : Type} (x : StateM σ α) (f : α → StateM σ β) (s : σ) :
    (x >>= f) s = f (x s).1 (x s).2 :=
  rfl

namespace Program

/-- What is reported for a line. -/
def messages (text : String) (s : State) : List String :=
  match Session.run text s with
  | (.error e, _) => [e.message]
  | (.ok _, t) => (t.errors.map EvalError.message).toList

/-- The value of a unit is written in pipe mode, unless it is null. -/
def echo (pipeMode : Bool) (value : Option Value) (s : State) : State :=
  match pipeMode, value with
  | true, some value => if value.isNull then s else s.write value.display
  | _, _ => s

theorem echo_fields (pipeMode : Bool) (value : Option Value) (s : State) :
    (echo pipeMode value s).errors = s.errors ∧
      (echo pipeMode value s).output.reports = s.output.reports := by
  unfold echo
  split
  · split <;> exact ⟨rfl, rfl⟩
  · exact ⟨rfl, rfl⟩

theorem echo_behind (pipeMode : Bool) (value : Option Value) (reports : Array String) (s : State) :
    echo pipeMode value (s.behind reports) = (echo pipeMode value s).behind reports := by
  unfold echo
  split
  · split <;> rfl
  · rfl

theorem runUnit_of_parse_error {text : String} {e : ParseError}
    (h : parse Vocabulary.console text = .error e) (pipeMode : Bool) (s : State) :
    runUnit pipeMode text s = (false, s.clearErrors.reportMessage e.message) := by
  rw [runUnit, stateM_bind, Session.run_of_parse_error h]
  rfl

theorem runUnit_of_parse_ok {text : String} {tree : Node}
    (h : parse Vocabulary.console text = .ok tree) (pipeMode : Bool) (s : State) :
    runUnit pipeMode text s =
      ((Eval.unit tree s.clearErrors).2.errors.isEmpty,
        (echo pipeMode (Eval.unit tree s.clearErrors).1
          (Eval.unit tree s.clearErrors).2).report) := by
  rw [runUnit, stateM_bind, Session.run_of_parse_ok h]
  generalize Eval.unit tree s.clearErrors = result
  obtain ⟨value, t⟩ := result
  cases pipeMode with
  | false => rfl
  | true =>
    cases value with
    | none => rfl
    | some value => cases value <;> rfl

/-! ### One line -/

section Line

variable {text : String} {e : ParseError} {tree : Node}

theorem messages_of_parse_error (h : parse Vocabulary.console text = .error e) (s : State) :
    messages text s = [e.message] := by
  rw [messages, Session.run_of_parse_error h]

theorem messages_of_parse_ok (h : parse Vocabulary.console text = .ok tree) (s : State) :
    messages text s = ((Eval.unit tree s.quiet).2.errors.map EvalError.message).toList := by
  rw [messages, Session.run_of_parse_ok h, Eval.unit_clearErrors]
  rfl

theorem messages_quiet (text : String) (s : State) : messages text s.quiet = messages text s := by
  cases h : parse Vocabulary.console text with
  | error e => rw [messages_of_parse_error h, messages_of_parse_error h]
  | ok tree =>
    rw [messages_of_parse_ok h, messages_of_parse_ok h]
    rfl

theorem reports_runUnit (pipeMode : Bool) (text : String) (s : State) :
    (runUnit pipeMode text s).2.output.reports.toList =
      s.output.reports.toList ++ messages text s := by
  cases h : parse Vocabulary.console text with
  | error e =>
    rw [runUnit_of_parse_error h, messages_of_parse_error h]
    exact Array.toList_push
  | ok tree =>
    rw [runUnit_of_parse_ok h, messages_of_parse_ok h, State.report_eq_append,
      Eval.unit_clearErrors]
    obtain ⟨herrors, hreports⟩ := echo_fields pipeMode (Eval.unit tree s.quiet).1
      ((Eval.unit tree s.quiet).2.behind s.output.reports)
    simp only [herrors, hreports]
    simp [State.behind, Eval.reports_unit_quiet]

/-- Neither what is in the log nor what has been reported has a part in what a line does. -/
theorem quiet_runUnit (pipeMode : Bool) (text : String) (s : State) :
    (runUnit pipeMode text s).2.quiet = (runUnit pipeMode text s.quiet).2.quiet := by
  cases h : parse Vocabulary.console text with
  | error e =>
    rw [runUnit_of_parse_error h, runUnit_of_parse_error h]
    rfl
  | ok tree =>
    rw [runUnit_of_parse_ok h, runUnit_of_parse_ok h, State.quiet_report, State.quiet_report,
      Eval.unit_clearErrors tree s, echo_behind, State.quiet_behind]
    rfl

theorem quiet_runUnit_of_parse_error (h : parse Vocabulary.console text = .error e)
    (pipeMode : Bool) (s : State) : (runUnit pipeMode text s).2.quiet = s.quiet := by
  rw [runUnit_of_parse_error h]
  rfl

theorem runUnit_succeeds_iff (pipeMode : Bool) (text : String) (s : State) :
    (runUnit pipeMode text s).1 = true ↔ Session.Succeeds text s := by
  unfold Session.Succeeds
  cases h : parse Vocabulary.console text with
  | error e =>
    rw [runUnit_of_parse_error h, Session.run_of_parse_error h]
    constructor
    · rintro ⟨⟩
    · rintro ⟨value, t, ⟨⟩, -⟩
  | ok tree =>
    rw [runUnit_of_parse_ok h, Session.run_of_parse_ok h, Array.isEmpty_iff]
    constructor
    · intro herrors
      exact ⟨_, _, rfl, herrors⟩
    · rintro ⟨value, t, ⟨⟩, herrors⟩
      exact herrors

end Line

/-! ### All lines -/

/-- The lines up to the first that cannot be read, each with the state in which it is run. -/
def visits (pipeMode : Bool) : List (Except ReadError String) → State → List (String × State)
  | .ok text :: lines, s => (text, s) :: visits pipeMode lines (runUnit pipeMode text s).2
  | _, _ => []

/-- What is reported for the first line that cannot be read. -/
def refusals : List (Except ReadError String) → List String
  | [] => []
  | .error e :: _ => ["Failed to read standard input: " ++ e.message]
  | .ok _ :: lines => refusals lines

/-- The text is that of a unit. -/
def parses (text : String) : Bool :=
  (parse Vocabulary.console text).isOk

/-- The line is not one that can be read and does not parse. -/
def keeps : Except ReadError String → Bool
  | .ok text => parses text
  | .error _ => true

theorem parses_of_parse_error {text : String} {e : ParseError}
    (h : parse Vocabulary.console text = .error e) : parses text = false := by
  rw [parses, h]
  rfl

theorem parses_of_parse_ok {text : String} {tree : Node}
    (h : parse Vocabulary.console text = .ok tree) : parses text = true := by
  rw [parses, h]
  rfl

theorem runLines_ok (pipeMode success : Bool) (text : String) (lines : List (Except ReadError String))
    (s : State) : runLines pipeMode success (.ok text :: lines) s =
      runLines pipeMode (success && (runUnit pipeMode text s).1) lines
        (runUnit pipeMode text s).2 := by
  rw [runLines, stateM_bind]

theorem reports_runLines (pipeMode success : Bool) (lines : List (Except ReadError String))
    (s : State) : (runLines pipeMode success lines s).2.output.reports.toList =
      s.output.reports.toList ++
        (visits pipeMode lines s).flatMap (fun visit => messages visit.1 visit.2) ++
        refusals lines := by
  induction lines generalizing success s with
  | nil => simp [runLines, visits, refusals, pure, StateT.pure]
  | cons line lines ih =>
    cases line with
    | error e =>
      rw [visits, refusals, List.flatMap_nil, List.append_nil]
      · exact Array.toList_push
      · rintro _ _ ⟨⟩
    | ok text =>
      rw [runLines_ok, ih, reports_runUnit, visits, refusals, List.flatMap_cons]
      simp only [List.append_assoc]

theorem refusals_filter (lines : List (Except ReadError String)) :
    refusals (lines.filter keeps) = refusals lines := by
  induction lines with
  | nil => rfl
  | cons line lines ih =>
    cases line with
    | error e => rfl
    | ok text =>
      cases h : keeps (.ok text) with
      | false =>
        rw [List.filter_cons_of_neg (by simp [h]), ih]
        rfl
      | true =>
        rw [List.filter_cons_of_pos h]
        exact ih

/-- Without the lines that do not parse, the others are run in the same states, up to the log and
the reports, and so the run ends in the same. -/
theorem quiet_runLines_filter (pipeMode success success' : Bool)
    (lines : List (Except ReadError String)) {s s' : State} (hs : s.quiet = s'.quiet) :
    (runLines pipeMode success lines s).2.quiet =
        (runLines pipeMode success' (lines.filter keeps) s').2.quiet ∧
      ((visits pipeMode lines s).filter fun visit => parses visit.1).map
          (fun visit => (visit.1, visit.2.quiet)) =
        (visits pipeMode (lines.filter keeps) s').map fun visit => (visit.1, visit.2.quiet) := by
  induction lines generalizing success success' s s' with
  | nil => exact ⟨hs, rfl⟩
  | cons line lines ih =>
    cases line with
    | error e => exact ⟨hs, rfl⟩
    | ok text =>
      rw [runLines_ok, visits]
      cases h : parse Vocabulary.console text with
      | error e =>
        have hnot := parses_of_parse_error h
        have hskip : (.ok text :: lines : List (Except ReadError String)).filter keeps =
            lines.filter keeps := List.filter_cons_of_neg (by simp [keeps, hnot])
        rw [hskip, List.filter_cons_of_neg (by simp [hnot])]
        exact ih _ _ ((quiet_runUnit_of_parse_error h pipeMode s).trans hs)
      | ok tree =>
        have hparses := parses_of_parse_ok h
        have htake : (.ok text :: lines : List (Except ReadError String)).filter keeps =
            .ok text :: lines.filter keeps := List.filter_cons_of_pos (by simp [keeps, hparses])
        rw [htake, List.filter_cons_of_pos (by simp [hparses]), runLines_ok, visits, List.map_cons,
          List.map_cons, hs]
        have hnext : (runUnit pipeMode text s).2.quiet = (runUnit pipeMode text s').2.quiet := by
          rw [quiet_runUnit, hs, ← quiet_runUnit]
        obtain ⟨hending, hvisits⟩ := ih _ _ hnext
        exact ⟨hending, congrArg _ hvisits⟩

theorem messages_filter (pipeMode : Bool) (lines : List (Except ReadError String)) (s : State) :
    (visits pipeMode (lines.filter keeps) s).flatMap (fun visit => messages visit.1 visit.2) =
      ((visits pipeMode lines s).filter fun visit => parses visit.1).flatMap
        fun visit => messages visit.1 visit.2 := by
  -- What is reported for a line can be told from the line and the quiet state.
  have hquiet : ∀ visits : List (String × State),
      visits.flatMap (fun visit => messages visit.1 visit.2) =
        (visits.map fun visit => (visit.1, visit.2.quiet)).flatMap
          fun visit => messages visit.1 visit.2 := by
    intro visits
    rw [List.flatMap_map]
    simp only [messages_quiet]
  rw [hquiet, hquiet (List.filter _ _),
    (quiet_runLines_filter pipeMode true true lines (rfl : s.quiet = s.quiet)).2]

theorem runLines_succeeds_iff (pipeMode success : Bool) (lines : List (Except ReadError String))
    (s : State) : (runLines pipeMode success lines s).1 = true ↔
      success = true ∧ lines = (visits pipeMode lines s).map (fun visit => .ok visit.1) ∧
        ∀ visit ∈ visits pipeMode lines s, Session.Succeeds visit.1 visit.2 := by
  induction lines generalizing success s with
  | nil => simp [runLines, visits, pure, StateT.pure]
  | cons line lines ih =>
    cases line with
    | error e =>
      have hvisits : visits pipeMode (.error e :: lines) s = [] := rfl
      have hfails : (runLines pipeMode success (.error e :: lines) s).1 = false := rfl
      simp [hvisits, hfails]
    | ok text =>
      rw [runLines_ok, ih, visits, Bool.and_eq_true, runUnit_succeeds_iff, List.map_cons,
        List.forall_mem_cons, List.cons.injEq]
      constructor
      · rintro ⟨⟨hsuccess, hunit⟩, hall, hrest⟩
        exact ⟨hsuccess, ⟨rfl, hall⟩, hunit, hrest⟩
      · rintro ⟨hsuccess, ⟨-, hall⟩, hunit, hrest⟩
        exact ⟨⟨hsuccess, hunit⟩, hall, hrest⟩

end Program

/-- A text that does not parse only empties the log of a session. Where lines are run one by one, in
pipe mode or not, the run without those that do not parse ends in the same variables, functions and
depth and prints the same. What it reports is what is reported for the lines that it runs; a line
that does not parse would have added its one message. A run of all the lines is a success exactly if
all were read, and each of them parsed and logged nothing. -/
theorem rejected_lines_traceless (pipeMode : Bool) (lines : List (Except ReadError String))
    (s : State) :
    (∀ text e, parse Vocabulary.console text = .error e →
      Session.run text s = (.error e, { s with errors := #[] })) ∧
    let full := Program.runLines pipeMode true lines s
    let kept := Program.runLines pipeMode true (lines.filter Program.keeps) s
    let visits := Program.visits pipeMode lines s
    (kept.2.output.lines = full.2.output.lines ∧ kept.2.scope = full.2.scope ∧
        kept.2.registry = full.2.registry ∧ kept.2.depth = full.2.depth) ∧
      full.2.output.reports.toList = s.output.reports.toList ++
        visits.flatMap (fun visit => Program.messages visit.1 visit.2) ++
        Program.refusals lines ∧
      kept.2.output.reports.toList = s.output.reports.toList ++
        (visits.filter fun visit => Program.parses visit.1).flatMap
          (fun visit => Program.messages visit.1 visit.2) ++
        Program.refusals lines ∧
      (∀ visit ∈ visits, ∀ e, parse Vocabulary.console visit.1 = .error e →
        Program.messages visit.1 visit.2 = [e.message]) ∧
      (full.1 = true ↔ lines = visits.map (fun visit => .ok visit.1) ∧
        ∀ visit ∈ visits, Session.Succeeds visit.1 visit.2) := by
  refine ⟨fun text e h => Session.run_of_parse_error h s, ?_, ?_, ?_, ?_, ?_⟩
  · have hquiet := (Program.quiet_runLines_filter pipeMode true true lines
      (rfl : s.quiet = s.quiet)).1
    exact State.fields_of_quiet hquiet.symm
  · exact Program.reports_runLines pipeMode true lines s
  · rw [Program.reports_runLines, Program.messages_filter, Program.refusals_filter]
  · intro visit _ e h
    exact Program.messages_of_parse_error h visit.2
  · rw [Program.runLines_succeeds_iff]
    simp

end ConsoleScript
