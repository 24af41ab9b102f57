import Mathlib
import ConsoleScript.Proofs.Source.Movement

/-!
# Looking ahead and failing for good

A lexer can be asked for the next token, for a look at it, or for all the tokens that are left. A
look answers as the next token would and leaves no trace, since going back to a position also brings
back the characters that follow it; this needs a cursor that is in the text, and rules that keep it
there. The first failure that is not met in a look is the answer to everything from then on.
-/

namespace ConsoleScript

variable {κ : Type}

namespace Lexer

inductive Query where
  | next
  | peek
  | tokens
deriving DecidableEq

/-- A token, a list of them, or a failure. -/
abbrev Answer (κ : Type) := Except LexError (Token κ ⊕ List (Token κ))

/-- The rules only go on, the cursor is in the text, and there is at most one failure. -/
structure Intact (l : Lexer κ) : Prop where
  rules : l.rules.Forward
  cursor : l.cursor.IsIn l.text.toList
  failures : l.failures.length ≤ 1

theorem intact_start {set : RuleSet κ} (h : set.Forward) (text : String) :
    (start set text).Intact := by
  refine ⟨h, ?_, Nat.zero_le 1⟩
  have hin := Cursor.isIn_start text
  simpa only [start, List.toList_toArray] using hin

theorem Intact.onward {l : Lexer κ} (hl : l.Intact) {d : Cursor} (hd : l.cursor.Onward d)
    {failures : List LexError} (hlength : failures.length ≤ 1) :
    Intact { l with cursor := d, failures } :=
  ⟨hl.rules, hl.cursor.onward hd, hlength⟩

variable [TokenKind κ]

/-- What asking for the next token can do. -/
theorem next_cases (l : Lexer κ) :
    (∃ e more, l.failures = e :: more ∧ l.next = .error e l) ∨
      l.failures = [] ∧
        ((∃ t d, l.rules.scan l.size l.cursor = .ok t d ∧ l.next = .ok t { l with cursor := d }) ∨
          ∃ e d, l.rules.scan l.size l.cursor = .error e d ∧
            l.next = .error e { l with cursor := d, failures := [e] }) := by
  cases hfailures : l.failures with
  | cons e more =>
    refine .inl ⟨e, more, rfl, ?_⟩
    simp only [next, hfailures]
  | nil =>
    refine .inr ⟨rfl, ?_⟩
    cases hscan : l.rules.scan l.size l.cursor with
    | ok t d =>
      refine .inl ⟨t, d, rfl, ?_⟩
      simp only [next, hfailures, hscan]
    | error e d =>
      refine .inr ⟨e, d, rfl, ?_⟩
      simp only [next, hfailures, hscan, fail, List.nil_append]

/-- The lexer is intact, and it holds the failure that there was, if there was one. -/
def Settled {α : Type} : EStateM.Result LexError (Lexer κ) α → Prop
  | .ok _ l => l.Intact ∧ l.failures = []
  | .error e l => l.Intact ∧ l.failures = [e]

theorem Intact.settled_next {l : Lexer κ} (hl : l.Intact) : Settled l.next := by
  have honward := RuleSet.scan_onward hl.rules l.size l.cursor
  rcases l.next_cases with
    ⟨e, more, hfailures, hnext⟩ | ⟨hfresh, ⟨t, d, hscan, hnext⟩ | ⟨e, d, hscan, hnext⟩⟩
  · have hmore : more = [] := by
      have hlength := hl.failures
      rw [hfailures, List.length_cons] at hlength
      exact List.length_eq_zero_iff.mp (by omega)
    rw [hnext]
    exact ⟨hl, by rw [hfailures, hmore]⟩
  · rw [hscan] at honward
    rw [hnext]
    exact ⟨hl.onward honward hl.failures, hfresh⟩
  · rw [hscan] at honward
    rw [hnext]
    exact ⟨hl.onward honward (Nat.le_refl 1), rfl⟩

theorem Intact.settled_takeTokens {l : Lexer κ} (hl : l.Intact) (taken : List (Token κ)) :
    Settled (takeTokens taken l) := by
  induction taken, l using takeTokens.induct with
  | case1 taken l e after hnext =>
    have hsettled : Settled (.error e after) := hnext ▸ hl.settled_next
    rw [takeTokens, hnext]
    exact hsettled
  | case2 taken l t after hnext hend =>
    have hsettled : Settled (.ok t after) := hnext ▸ hl.settled_next
    rw [takeTokens, hnext]
    simp only [hend, ↓reduceIte]
    exact hsettled
  | case3 taken l t after hnext hend hmoved ih =>
    have hsettled : Settled (.ok t after) := hnext ▸ hl.settled_next
    rw [takeTokens, hnext]
    simp only [hend, Bool.false_eq_true, hmoved, ↓reduceIte, ↓reduceDIte]
    exact ih hsettled.1
  | case4 taken l t after hnext hend hmoved =>
    have hsettled : Settled (.ok t after) := hnext ▸ hl.settled_next
    obtain ⟨hafter, hfresh⟩ := hsettled
    have hfailed : (after.fail (RuleSet.unrecognized l.cursor)).failures =
        [RuleSet.unrecognized l.cursor] := by
      rw [fail, hfresh, List.nil_append]
    rw [takeTokens, hnext]
    simp only [hend, Bool.false_eq_true, hmoved, ↓reduceIte, ↓reduceDIte]
    exact ⟨⟨hafter.rules, hafter.cursor, hfailed ▸ Nat.le_refl 1⟩, hfailed⟩

/-! ### Queries -/

def answered {α : Type} (f : α → Token κ ⊕ List (Token κ)) :
    EStateM.Result LexError (Lexer κ) α → Answer κ × Lexer κ
  | .ok a l => (.ok (f a), l)
  | .error e l => (.error e, l)

def ask (l : Lexer κ) : Query → Answer κ × Lexer κ
  | .next => answered .inl l.next
  | .peek => answered .inl l.peek
  | .tokens => answered .inr l.tokens

/-- The answers to several queries, one after the other, and the lexer after them. -/
def serve (l : Lexer κ) : List Query → List (Answer κ) × Lexer κ
  | [] => ([], l)
  | r :: queries =>
    ((l.ask r).1 :: ((l.ask r).2.serve queries).1, ((l.ask r).2.serve queries).2)

omit [TokenKind κ] in
theorem Intact.rewind_eq {l after : Lexer κ} (hl : l.Intact) (hrules : after.rules = l.rules)
    (htext : after.text = l.text) (hfailures : after.failures.take l.failures.length = l.failures) :
    after.rewind l.cursor.checkpoint l.failures.length = l := by
  rw [rewind, hrules, htext, hfailures, hl.cursor.restore_checkpoint]

/-- Going back undoes all that looking for the next token does. -/
theorem Intact.ask_peek {l : Lexer κ} (hl : l.Intact) : l.ask .peek = ((l.ask .next).1, l) := by
  rcases l.next_cases with ⟨e, more, _, hnext⟩ | ⟨hfresh, ⟨t, d, _, hnext⟩ | ⟨e, d, _, hnext⟩⟩
  · have hback : l.rewind l.cursor.checkpoint l.failures.length = l :=
      hl.rewind_eq rfl rfl List.take_length
    simp only [ask, peek, hnext, answered, hback]
  · have hback : rewind l.cursor.checkpoint l.failures.length { l with cursor := d } = l :=
      hl.rewind_eq rfl rfl List.take_length
    simp only [ask, peek, hnext, answered, hback]
  · have hback : rewind l.cursor.checkpoint l.failures.length
        { l with cursor := d, failures := [e] } = l :=
      hl.rewind_eq rfl rfl (by rw [hfresh]; rfl)
    simp only [ask, peek, hnext, answered, hback]

omit [TokenKind κ] in
theorem Settled.answered {α : Type} {result : EStateM.Result LexError (Lexer κ) α}
    (h : Settled result) (f : α → Token κ ⊕ List (Token κ)) :
    (Lexer.answered f result).2.Intact ∧
      ∀ e, (Lexer.answered f result).1 = .error e → (Lexer.answered f result).2.failures = [e] := by
  cases result with
  | ok a l =>
    refine ⟨h.1, ?_⟩
    rintro e ⟨⟩
  | error e l =>
    refine ⟨h.1, ?_⟩
    rintro e ⟨⟩
    exact h.2

theorem Intact.ask {l : Lexer κ} (hl : l.Intact) (r : Query) : (l.ask r).2.Intact := by
  cases r with
  | next => exact (hl.settled_next.answered _).1
  | peek =>
    rw [hl.ask_peek]
    exact hl
  | tokens => exact ((hl.settled_takeTokens []).answered _).1

theorem Intact.failures_of_ask {l : Lexer κ} (hl : l.Intact) {r : Query} (hr : r ≠ .peek)
    {e : LexError} (h : (l.ask r).1 = .error e) : (l.ask r).2.failures = [e] := by
  cases r with
  | next => exact (hl.settled_next.answered _).2 e h
  | peek => exact absurd rfl hr
  | tokens => exact ((hl.settled_takeTokens []).answered _).2 e h

/-- A lexer that has failed answers everything with its failure and stays as it is. -/
theorem Intact.ask_of_failed {l : Lexer κ} (hl : l.Intact) {e : LexError}
    (h : l.failures = [e]) (r : Query) : l.ask r = (.error e, l) := by
  have hnext : l.next = .error e l := by simp only [next, h]
  cases r with
  | next => rw [Lexer.ask, hnext]; rfl
  | peek => rw [hl.ask_peek, Lexer.ask, hnext]; rfl
  | tokens => rw [Lexer.ask, tokens, takeTokens, hnext]; rfl

theorem Intact.serve_of_failed {l : Lexer κ} (hl : l.Intact) {e : LexError}
    (h : l.failures = [e]) (queries : List Query) :
    l.serve queries = (queries.map fun _ => .error e, l) := by
  induction queries with
  | nil => rfl
  | cons r queries ih => rw [serve, hl.ask_of_failed h r, ih, List.map_cons]

theorem Intact.serve {l : Lexer κ} (hl : l.Intact) (queries : List Query) :
    (l.serve queries).2.Intact := by
  induction queries generalizing l with
  | nil => exact hl
  | cons r queries ih => exact ih (hl.ask r)

/-- The answers that are not to looks. -/
def answersApart (queries : List Query) (answers : List (Answer κ)) : List (Answer κ) :=
  ((queries.zip answers).filter fun pair => pair.1 ≠ .peek).map Prod.snd

theorem Intact.serve_without_peeks {l : Lexer κ} (hl : l.Intact) (queries : List Query) :
    l.serve (queries.filter (· ≠ .peek)) =
      (answersApart queries (l.serve queries).1, (l.serve queries).2) := by
  induction queries generalizing l with
  | nil => rfl
  | cons r queries ih =>
    by_cases hr : r = .peek
    · subst hr
      have hskip := ih hl
      rw [Lexer.serve, hl.ask_peek]
      simpa [answersApart] using hskip
    · have hrest := ih (hl.ask r)
      rw [List.filter_cons_of_pos (by simpa using hr), Lexer.serve, hrest]
      simp [answersApart, Lexer.serve, hr]

end Lexer

/-- At every point of a dialogue with a lexer a look is answered as the next token would be and
leaves the lexer as it is, there is at most one failure, and once something other than a look has
failed the lexer stays as it is and answers with that failure. Without its looks the dialogue has
the same other answers and ends in the same place. -/
theorem lookahead_transparent [TokenKind κ] {set : RuleSet κ} (hset : set.Forward) (text : String)
    (queries : List Lexer.Query) (l : Lexer κ)
    (hl : l = ((Lexer.start set text).serve queries).2) :
    l.ask .peek = ((l.ask .next).1, l) ∧
      l.failures.length ≤ 1 ∧
      (∀ r e, r ≠ .peek → (l.ask r).1 = .error e → ∀ later,
        (l.ask r).2.serve later = (later.map fun _ => .error e, (l.ask r).2)) ∧
      (Lexer.start set text).serve (queries.filter (· ≠ .peek)) =
        (Lexer.answersApart queries ((Lexer.start set text).serve queries).1, l) := by
  have hstart := Lexer.intact_start hset text
  have hintact : l.Intact := hl ▸ hstart.serve queries
  refine ⟨hintact.ask_peek, hintact.failures, ?_, ?_⟩
  · intro r e hr he later
    exact (hintact.ask r).serve_of_failed (hintact.failures_of_ask hr he) later
  · rw [hl]
    exact hstart.serve_without_peeks queries

/-- A name, and on the next line a character that no rule reads. -/
theorem lookahead_transparent_dollar :
    Vocabulary.console.Forward ∧
      ∃ l, l = ((Lexer.start Vocabulary.console "x\n$").serve [.peek, .next]).2 ∧
        l.ask .peek = (.error (.unrecognized '$' 2 2), l) ∧
        l.failures.length ≤ 1 ∧
        (l.ask .next).2.serve [.peek, .tokens] =
          ([.error (.unrecognized '$' 2 2), .error (.unrecognized '$' 2 2)], (l.ask .next).2) ∧
        (Lexer.start Vocabulary.console "x\n$").serve [.next] =
          ([.ok (.inl ⟨.identifier, some (.text "x"), 1⟩)], l) := by
  obtain ⟨hpeek, hlength, hfinal, hdropped⟩ :=
    lookahead_transparent Vocabulary.forward_console "x\n$" [.peek, .next] _ rfl
  have hfails : (((Lexer.start Vocabulary.console "x\n$").serve [.peek, .next]).2.ask .next).1 =
      .error (.unrecognized '$' 2 2) := by
    cbv
  have hname : Lexer.answersApart [.peek, .next]
      ((Lexer.start Vocabulary.console "x\n$").serve [.peek, .next]).1 =
        [.ok (.inl ⟨.identifier, some (.text "x"), 1⟩)] := by
    cbv
  refine ⟨Vocabulary.forward_console, _, rfl, ?_, hlength, ?_, ?_⟩
  · rw [hpeek, hfails]
  · exact hfinal .next _ (by decide) hfails [.peek, .tokens]
  · rw [← hname]
    exact hdropped

end ConsoleScript
