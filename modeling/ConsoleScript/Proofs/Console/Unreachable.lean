import Mathlib
import ConsoleScript.Proofs.Console.Concatenation
import ConsoleScript.Proofs.Evaluation.Regular

/-!
# Failures that no text leads to

However many texts are run in a session, no failure is logged for a missing value or for an
assignment to something else than a variable, and a builtin function refuses its operands only where
`*` is to repeat a string by something else than an int. The parameters of user functions can always
be bound.
-/

namespace ConsoleScript

open Machine

namespace Session

/-- The states of a session, which runs texts one after the other, whatever output it writes to.
Failures may be reported in between. -/
inductive Reached : State → Prop where
  | initial (output : Output) : Reached { State.initial with output }
  | text {s : State} (h : Reached s) (text : String) : Reached (run text s).2
  | report {s : State} (h : Reached s) : Reached s.report

/-- Where the text is run in `s`, this statement of it is evaluated in `t`. -/
def Evaluates (text : String) (s : State) (n : Node) (t : State) : Prop :=
  ∃ before behind line, parse Vocabulary.console text = .ok (.block (before ++ n :: behind) line) ∧
    t = (Eval.statements none before s.clearErrors).2

end Session

/-- The functions are regular and no call is in progress. -/
structure State.Idle (s : State) : Prop where
  registry : s.registry.Regular
  depth : s.depth = 0

variable {n : Node} {nodes : List Node} {s : State}

theorem State.Idle.clearErrors (hs : s.Idle) : s.clearErrors.Idle :=
  ⟨hs.registry, hs.depth⟩

theorem State.Idle.reaches_node (hs : s.Idle) (n : Node) :
    Reaches (start n s) (settle [] (Eval.node n s)) :=
  Machine.reaches_node n (by rw [hs.depth]; exact Nat.zero_le _)

/-- A failure that is logged while a statement is evaluated. -/
inductive Logged (n : Node) (s : State) : EvalError → Prop where
  | plain {e : EvalError} (h : e.IsPlain) : Logged n s e
  | repetition {found : ValueType} {line : Nat} (h : (start n s).MeetsRepetition line found) :
      Logged n s (.operands (.notRepeatable found) line)

theorem State.Idle.orLog (hs : s.Idle) (hn : n.IsStatement) :
    (Eval.orLog (Eval.node n) s).2.Idle ∧
      ∀ e ∈ (Eval.orLog (Eval.node n) s).2.errors, e ∈ s.errors ∨ Logged n s e := by
  have hregular := (regular_start hn hs.registry).reaches (hs.reaches_node n)
  have hdepth : (Eval.orLog (Eval.node n) s).2.depth = 0 :=
    (Evolves.orLog n s).depth_eq.trans hs.depth
  unfold Eval.orLog at hdepth ⊢
  cases hrun : Eval.node n s with
  | ok value t =>
    rw [hrun] at hregular hdepth
    refine ⟨⟨hregular.state.registry, hdepth⟩, ?_⟩
    intro e he
    exact (hregular.state.log e he).imp_right .plain
  | error failure t =>
    rw [hrun] at hregular hdepth
    refine ⟨⟨hregular.state.registry, hdepth⟩, ?_⟩
    intro e he
    rcases Array.mem_push.mp he with he | rfl
    · exact (hregular.state.log e he).imp_right .plain
    · right
      cases hregular.focus with
      | plain h => exact .plain h
      | repetition h => exact .repetition h

theorem State.Idle.statements (hs : s.Idle) (hnodes : ∀ n ∈ nodes, n.IsStatement) :
    (Eval.statements none nodes s).2.Idle ∧
      ∀ e ∈ (Eval.statements none nodes s).2.errors, e ∈ s.errors ∨
        ∃ before n behind, nodes = before ++ n :: behind ∧
          Logged n (Eval.statements none before s).2 e := by
  induction nodes generalizing s with
  | nil => exact ⟨hs, fun e he => .inl he⟩
  | cons n nodes ih =>
    obtain ⟨hn, hnodes⟩ := List.forall_mem_cons.mp hnodes
    obtain ⟨hidle, hlog⟩ := hs.orLog hn
    have hcons (nodes : List Node) : (Eval.statements none (n :: nodes) s).2 =
        (Eval.statements none nodes (Eval.orLog (Eval.node n) s).2).2 := by
      rw [Eval.statements_cons, Eval.statements_eq_none]
    obtain ⟨hlast, hlogs⟩ := ih hidle hnodes
    rw [hcons]
    refine ⟨hlast, ?_⟩
    intro e he
    rcases hlogs e he with he | ⟨before, n', behind, rfl, hlogged⟩
    · exact (hlog e he).imp_right fun hlogged => ⟨[], n, nodes, rfl, hlogged⟩
    · exact .inr ⟨n :: before, n', behind, rfl, by rwa [hcons]⟩

theorem State.Idle.run (hs : s.Idle) (text : String) : (Session.run text s).2.Idle ∧
    ∀ e ∈ (Session.run text s).2.errors, ∃ n t, Session.Evaluates text s n t ∧ Logged n t e := by
  cases hparse : parse Vocabulary.console text with
  | error e =>
    have hrun : (Session.run text s).2 = s.clearErrors := by
      unfold Session.run
      rw [hparse]
      rfl
    rw [hrun]
    refine ⟨hs.clearErrors, ?_⟩
    intro e he
    exact absurd he (Array.not_mem_empty e)
  | ok tree =>
    obtain ⟨nodes, line, rfl, hnodes⟩ := shape_of_parse hparse
    rw [Session.run_of_parse hparse]
    obtain ⟨hidle, hlog⟩ := hs.clearErrors.statements hnodes
    refine ⟨hidle, ?_⟩
    intro e he
    rcases hlog e he with he | ⟨before, n, behind, rfl, hlogged⟩
    · exact absurd he (Array.not_mem_empty e)
    · exact ⟨n, _, ⟨before, behind, line, hparse, rfl⟩, hlogged⟩

theorem Session.Reached.idle (h : Reached s) : s.Idle := by
  induction h with
  | initial output => exact ⟨Registry.regular_builtins, rfl⟩
  | text _ text ih => exact (ih.run text).1
  | @report s _ ih =>
    obtain ⟨output, houtput⟩ := s.report_eq
    rw [houtput]
    exact ⟨ih.registry, ih.depth⟩

/-- A statement of a parsed text is evaluated in a state of the same kind as that in which the text
is run. -/
theorem Session.Evaluates.idle {text : String} {t : State} (h : Evaluates text s n t)
    (hs : s.Idle) : t.Idle ∧ n.IsStatement := by
  obtain ⟨before, behind, line, hparse, rfl⟩ := h
  obtain ⟨nodes, _, htree, hnodes⟩ := shape_of_parse hparse
  cases htree
  have hbefore : ∀ n ∈ before, n.IsStatement := fun n hn => hnodes n (List.mem_append_left _ hn)
  exact ⟨(hs.clearErrors.statements hbefore).1, hnodes n (by simp)⟩

/-- Whatever texts were run before, the log of a text holds no failure for a missing value or for
what is assigned to, and a failure for the operands of a builtin function only where in the
evaluation of a statement `*` had a string on its left and no int on its right. In no evaluation is a
user function called whose parameters cannot be bound. -/
theorem excluded_failures (hs : Session.Reached s) (text : String) :
    (∀ e ∈ (Session.run text s).2.errors,
      (∀ line, e ≠ .missingValue line ∧ e ≠ .notAssignable line) ∧
      ∀ cause line, e = .operands cause line → ∃ found, cause = .notRepeatable found ∧
        ∃ n t m, Session.Evaluates text s n t ∧ Reaches (start n t) m ∧
          m.AtRepetition line found) ∧
    ∀ n t, Session.Evaluates text s n t →
      Reaches (start n t) (settle [] (Eval.node n t)) ∧
      ∀ m, Reaches (start n t) m → ∀ entry args line params body,
        m.focus = .call entry args line → entry.body = .user params body →
        ∃ frame, Scope.empty.bind line params entry.params args = .ok frame := by
  constructor
  · intro e he
    obtain ⟨n, t, hevaluates, hlogged⟩ := (hs.idle.run text).2 e he
    cases hlogged with
    | plain hplain =>
      refine ⟨fun line => ⟨?_, ?_⟩, ?_⟩
      · rintro rfl
        cases hplain
      · rintro rfl
        cases hplain
      · rintro cause line rfl
        cases hplain
    | repetition hmeets =>
      refine ⟨fun line => ⟨?_, ?_⟩, ?_⟩
      · rintro ⟨⟩
      · rintro ⟨⟩
      · rintro cause line ⟨⟩
        obtain ⟨m, hreaches, hrepetition⟩ := hmeets
        exact ⟨_, rfl, n, t, m, hevaluates, hreaches, hrepetition⟩
  · intro n t hevaluates
    obtain ⟨hidle, hn⟩ := hevaluates.idle hs.idle
    refine ⟨hidle.reaches_node n, ?_⟩
    intro m hm entry args line params body hfocus hbody
    have hregular := (regular_start hn hidle.registry).reaches hm
    have hcall := hregular.focus
    rw [hfocus] at hcall
    exact hregular.state.registry.bind hcall.mem hbody args line

/-- A session with a function, and a text that calls it and multiplies a string by a boolean. -/
def repeatingSession : State :=
  (Session.run "func int same(int n) n" State.initial).2

theorem excluded_failures_repeatingSession :
    Session.Reached repeatingSession ∧
      (Session.run "same(1); \"a\" * true" repeatingSession).2.errors =
        #[.operands (.notRepeatable .bool) 1] ∧
      ∃ n t m, Session.Evaluates "same(1); \"a\" * true" repeatingSession n t ∧
        Reaches (start n t) m ∧ m.AtRepetition 1 .bool := by
  have hreached : Session.Reached repeatingSession := .text (.initial .empty) _
  have herrors : (Session.run "same(1); \"a\" * true" repeatingSession).2.errors =
      #[.operands (.notRepeatable .bool) 1] := by cbv
  have hlogged : EvalError.operands (.notRepeatable .bool) 1 ∈
      (Session.run "same(1); \"a\" * true" repeatingSession).2.errors := by
    rw [herrors]
    exact Array.mem_singleton_self _
  refine ⟨hreached, herrors, ?_⟩
  obtain ⟨found, hfound, hmeets⟩ :=
    ((excluded_failures hreached _).1 _ hlogged).2 _ _ rfl
  cases hfound
  exact hmeets

end ConsoleScript
