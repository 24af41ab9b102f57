import Mathlib
import ConsoleScript.Proofs.Syntax.Nesting
import ConsoleScript.Proofs.Token.Lookahead

/-!
# Looking ahead by going on and coming back

The lexer behind a window stays in its text, whatever a parser does. So a look at the token behind
the current one can go on with the lexer and come back. A parser that looks ahead in this way does
step by step what one does that leaves its lexer where it is.
-/

namespace ConsoleScript

/-! ### Windows over a text -/

section Windows

variable {κ : Type} [TokenKind κ]

namespace Parse

/-- The window behind a part of a parser, whether the part succeeds or fails. -/
def after {σ α : Type} (p : Parse σ κ α) (w : Window σ κ) : Window σ κ :=
  match p w with
  | .ok _ v => v
  | .error _ v => v

/-- Looks at the token behind the current one by going on with the lexer and coming back. -/
def reread : Parse (Lexer κ) κ (Token κ) := fun w =>
  match Lexer.peek w.source with
  | .ok t after => .ok t { w with source := after }
  | .error e after => .error (.lexing e) { w with source := after }

theorem reread_eq_peek {w : Window (Lexer κ) κ} (h : w.source.Intact) : reread w = peek w := by
  have hpeek := h.ask_peek
  simp only [Lexer.ask] at hpeek
  have hnext : TokenSource.next w.source = Lexer.next w.source := rfl
  unfold reread peek
  rw [hnext]
  generalize Lexer.peek w.source = look at hpeek ⊢
  generalize Lexer.next w.source = read at hpeek ⊢
  cases look with
  | ok t after =>
    cases read with
    | ok u behind =>
      cases hpeek
      rfl
    | error e behind => cases hpeek
  | error e after =>
    cases read with
    | ok u behind => cases hpeek
    | error f behind =>
      cases hpeek
      rfl

end Parse

open Parse

/-- The windows to which the operations of a parser lead from the start of a text. -/
inductive Window.Reached (set : RuleSet κ) (text : String) : Window (Lexer κ) κ → Prop where
  | start {w : Window (Lexer κ) κ} (h : Window.start (Lexer.start set text) = .ok w) :
      Reached set text w
  | advance {w : Window (Lexer κ) κ} (h : Reached set text w) : Reached set text (advance.after w)
  | consume {w : Window (Lexer κ) κ} (h : Reached set text w) (kind : κ) :
      Reached set text ((consume kind).after w)
  | reread {w : Window (Lexer κ) κ} (h : Reached set text w) : Reached set text (reread.after w)
  | enter {w : Window (Lexer κ) κ} (h : Reached set text w) : Reached set text (enter.after w)
  | leave {w : Window (Lexer κ) κ} (h : Reached set text w) (levels : Nat) :
      Reached set text (w.leave levels)

namespace Window.Reached

theorem intact_advance {w : Window (Lexer κ) κ} (h : w.source.Intact) :
    (Parse.advance.after w).source.Intact := by
  have hsettled := h.settled_next
  have hnext : TokenSource.next w.source = Lexer.next w.source := rfl
  unfold after Parse.advance
  rw [hnext]
  generalize Lexer.next w.source = read at hsettled ⊢
  cases read <;> exact hsettled.1

theorem intact_consume {w : Window (Lexer κ) κ} (h : w.source.Intact) (kind : κ) :
    ((Parse.consume kind).after w).source.Intact := by
  unfold after Parse.consume
  by_cases hat : w.isAt kind
  · rw [if_pos hat]
    exact intact_advance h
  · rw [if_neg hat]
    exact h

/-- No operation takes the lexer out of its text or adds to its failures behind the first. -/
theorem intact {set : RuleSet κ} (hset : set.Forward) {text : String} {w : Window (Lexer κ) κ}
    (h : Reached set text w) : w.source.Intact := by
  induction h with
  | @start w h =>
    have hsettled := (Lexer.intact_start hset text).settled_next
    have hnext : TokenSource.next (Lexer.start set text) = Lexer.next (Lexer.start set text) := rfl
    rw [Window.start, hnext] at h
    generalize Lexer.next (Lexer.start set text) = read at hsettled h
    cases read with
    | ok t after =>
      cases h
      exact hsettled.1
    | error e after => cases h
  | advance _ ih => exact intact_advance ih
  | consume _ kind ih => exact intact_consume ih kind
  | @reread w _ ih =>
    rw [after, reread_eq_peek ih, peek]
    cases TokenSource.next w.source <;> exact ih
  | @enter w _ ih =>
    unfold after Parse.enter
    by_cases hdepth : w.depth < nestingLimit
    · rw [if_pos hdepth]
      exact ih
    · rw [if_neg hdepth]
      exact ih
  | leave _ _ ih => exact ih

end Window.Reached

/-- A failing operation leaves all of the window but its source. -/
theorem advance_error {w v : Window (Lexer κ) κ} {e : ParseError} (h : advance w = .error e v) :
    v.current = w.current ∧ v.previous = w.previous ∧ v.depth = w.depth := by
  unfold advance at h
  split at h
  · cases h
  · cases h
    exact ⟨rfl, rfl, rfl⟩

theorem consume_error {w v : Window (Lexer κ) κ} {kind : κ} {e : ParseError}
    (h : consume kind w = .error e v) :
    v.current = w.current ∧ v.previous = w.previous ∧ v.depth = w.depth := by
  unfold consume at h
  split at h
  · exact advance_error h
  · cases h
    exact ⟨rfl, rfl, rfl⟩

theorem reread_error {w v : Window (Lexer κ) κ} {e : ParseError} (h : reread w = .error e v) :
    v.current = w.current ∧ v.previous = w.previous ∧ v.depth = w.depth := by
  unfold reread at h
  split at h
  · cases h
  · cases h
    exact ⟨rfl, rfl, rfl⟩

end Windows

/-! ### The machine -/

open Vocabulary

variable {α β : Type}

theorem Parse.after_identifier (w : Window (Lexer Kind) Kind) :
    Grammar.identifier.after w = (consume .identifier).after w := by
  unfold Grammar.identifier
  cases hrun : consume .identifier w with
  | ok t v =>
    rw [after, after, hrun, bind_of_ok hrun]
    cases t.value with
    | none => rfl
    | some value => cases value <;> rfl
  | error e v =>
    rw [after, after, hrun, bind_of_error hrun]

namespace Config

theorem reached_settle {text : String} {p : Parse (Lexer Kind) Kind β}
    {w : Window (Lexer Kind) Kind} (h : Window.Reached console text (p.after w))
    (k : β → Script (Lexer Kind) α) (opened : Nat) :
    Window.Reached console text (settle k opened (p w)).window := by
  unfold Parse.after at h
  cases hrun : p w <;> rw [hrun] at h <;> exact h

/-- One step of a machine that looks ahead by going on with the lexer and coming back. -/
def rereadStep (c : Config (Lexer Kind) α) : Config (Lexer Kind) α :=
  match c.script with
  | .act .peek k => settle k c.opened (Parse.reread c.window)
  | _ => c.step

theorem rereadStep_eq_step {c : Config (Lexer Kind) α} (h : c.window.source.Intact) :
    c.rereadStep = c.step := by
  obtain ⟨script, opened, w⟩ := c
  cases script with
  | act i k =>
    cases i with
    | peek => exact congrArg (settle k opened) (Parse.reread_eq_peek h)
    | _ => rfl
  | _ => rfl

/-- A step does one operation on the window or none. -/
theorem reached_rereadStep {text : String} {c : Config (Lexer Kind) α}
    (h : Window.Reached console text c.window) :
    Window.Reached console text c.rereadStep.window := by
  obtain ⟨script, opened, w⟩ := c
  cases script with
  | act i k =>
    cases i with
    | look => exact h
    | advance => exact reached_settle h.advance k opened
    | consume kind => exact reached_settle (h.consume kind) k opened
    | peek => exact reached_settle h.reread k opened
    | identifier =>
      have hconsume := h.consume .identifier
      rw [← Parse.after_identifier] at hconsume
      exact reached_settle hconsume k opened
  | enter k => exact reached_settle h.enter (fun _ => k) opened
  | opening k =>
    have hwindow : (step ⟨.opening k, opened, w⟩).window = Parse.enter.after w := by
      simp only [step, Parse.after]
      cases Parse.enter w <;> rfl
    exact hwindow ▸ h.enter
  | leave k => exact h.leave 1
  | closing k => exact h.leave 1
  | fail e =>
    cases opened with
    | zero => exact h
    | succ opened => exact h.leave 1
  | done a => exact h
  | run p k => exact h
  | loop round b k => exact h

theorem iterate_rereadStep {text : String} {w : Window (Lexer Kind) Kind}
    (hw : Window.start (Lexer.start console text) = .ok w) (n : Nat) :
    rereadStep^[n] (start w) = step^[n] (start w) ∧
      Window.Reached console text (rereadStep^[n] (start w)).window := by
  induction n with
  | zero => exact ⟨rfl, .start hw⟩
  | succ n ih =>
    obtain ⟨heq, hreached⟩ := ih
    rw [Function.iterate_succ_apply', Function.iterate_succ_apply']
    refine ⟨?_, reached_rereadStep hreached⟩
    rw [rereadStep_eq_step (hreached.intact forward_console), heq]

end Config

/-- What parsing a text comes to if every look ahead goes on with the lexer and comes back. -/
inductive ParsesRereading (text : String) : Except ParseError Node → Prop where
  | failed {e : ParseError} (h : Window.start (Lexer.start console text) = .error e) :
      ParsesRereading text (.error e)
  | ended {w : Window (Lexer Kind) Kind} {n : Nat} {r : Except ParseError Node}
      (h : Window.start (Lexer.start console text) = .ok w)
      (hend : (Config.rereadStep^[n] (Config.start w)).result? = some r) : ParsesRereading text r

theorem parsesRereading_iff (text : String) (r : Except ParseError Node) :
    ParsesRereading text r ↔ r = parse console text := by
  cases hstart : Window.start (Lexer.start console text) with
  | error e =>
    have hparse : parse console text = .error e := by
      simp only [parse, Grammar.parseFrom, hstart, bind, Except.bind]
    rw [hparse]
    constructor
    · intro h
      cases h with
      | failed h =>
        cases hstart.symm.trans h
        rfl
      | ended h => cases hstart.symm.trans h
    · rintro rfl
      exact .failed hstart
  | ok w =>
    obtain ⟨n, hn⟩ := result?_of_start hstart
    constructor
    · intro h
      cases h with
      | failed h => cases hstart.symm.trans h
      | @ended v m _ h hend =>
        cases hstart.symm.trans h
        rw [(Config.iterate_rereadStep hstart m).1] at hend
        have hsame := Config.Reaches.unique ⟨m, rfl⟩ ⟨n, rfl⟩ (step_of_result? hend)
          (step_of_result? hn)
        rw [hsame, hn] at hend
        exact (Option.some.inj hend).symm
    · rintro rfl
      refine .ended hstart (n := n) ?_
      rw [(Config.iterate_rereadStep hstart n).1, hn]

end ConsoleScript
