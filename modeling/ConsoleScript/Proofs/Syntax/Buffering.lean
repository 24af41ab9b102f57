import Mathlib
import ConsoleScript.Proofs.Syntax.Acceptance
import ConsoleScript.Proofs.Syntax.Rereading
import ConsoleScript.Proofs.Syntax.Simulation
import ConsoleScript.Proofs.Token.Tokenization

/-!
# Parsing tokens that were read beforehand

A parser draws its tokens from a lexer as it needs them, and reads some of them twice. It gives what
it would give if all tokens of the text, up to the end or to the first failure, lay in a list.
-/

namespace ConsoleScript

variable {κ : Type}

/-- The tokens of a text, and the line of its end or the failure that cuts them off. -/
structure Buffer (κ : Type) where
  tokens : List (Token κ)
  ending : Except LexError Nat

namespace Buffer

def push (t : Token κ) (b : Buffer κ) : Buffer κ :=
  { b with tokens := t :: b.tokens }

def tokens? (b : Buffer κ) : Except LexError (List (Token κ)) :=
  b.ending.map fun _ => b.tokens

variable [TokenKind κ]

/-- Takes the first token. Where none is left, the end or the failure is met again and again. -/
def next : EStateM LexError (Buffer κ) (Token κ) := fun b =>
  match b.tokens, b.ending with
  | t :: ts, _ => .ok t { b with tokens := ts }
  | [], .ok line => .ok (Token.endOfText line) b
  | [], .error e => .error e b

instance : TokenSource (Buffer κ) κ where
  next := next
  remaining b := b.tokens.length

end Buffer

namespace Lexer

variable [TokenKind κ]

/-- Reads all that is left of a text. -/
def drain (l : Lexer κ) : Buffer κ :=
  match next l with
  | .error e _ => ⟨[], .error e⟩
  | .ok t after =>
    if t.isEnd then ⟨[], .ok t.line⟩
    else if _moved : after.remaining < l.remaining then after.drain.push t
    else ⟨[], .error (RuleSet.unrecognized l.cursor)⟩
termination_by l.remaining

variable {l after : Lexer κ} {t : Token κ}

theorem drain_of_error {e : LexError} (h : l.next = .error e after) :
    l.drain = ⟨[], .error e⟩ := by
  rw [drain, h]

theorem drain_of_end (h : l.next = .ok t after) (ht : t.isEnd = true) :
    l.drain = ⟨[], .ok t.line⟩ := by
  rw [drain, h]
  simp only [ht, ↓reduceIte]

theorem drain_of_token (h : l.next = .ok t after) (ht : t.isEnd = false)
    (hmoved : after.remaining < l.remaining) : l.drain = after.drain.push t := by
  rw [drain, h]
  simp only [ht, Bool.false_eq_true, ↓reduceIte, hmoved, ↓reduceDIte]

theorem takeTokens_ending (taken : List (Token κ)) (l : Lexer κ) :
    (∃ line after, l.drain.ending = .ok line ∧
        takeTokens taken l = .ok (taken.reverse ++ l.drain.tokens) after) ∨
      ∃ e after, l.drain.ending = .error e ∧ takeTokens taken l = .error e after := by
  induction taken, l using takeTokens.induct with
  | case1 taken l e after hnext =>
    rw [takeTokens, hnext, drain_of_error hnext]
    exact .inr ⟨e, after, rfl, rfl⟩
  | case2 taken l t after hnext hend =>
    rw [takeTokens, hnext, drain_of_end hnext hend]
    simp only [hend, ↓reduceIte, List.append_nil]
    exact .inl ⟨t.line, after, rfl, rfl⟩
  | case3 taken l t after hnext hend hmoved ih =>
    have ht : t.isEnd = false := by simpa using hend
    rw [takeTokens, hnext, drain_of_token hnext ht hmoved]
    simp only [ht, Bool.false_eq_true, ↓reduceIte, hmoved, ↓reduceDIte, Buffer.push]
    simpa using ih
  | case4 taken l t after hnext hend hmoved =>
    rw [takeTokens, drain, hnext]
    simp only [hend, Bool.false_eq_true, ↓reduceIte, hmoved, ↓reduceDIte]
    exact .inr ⟨_, _, rfl, rfl⟩

end Lexer

section Buffered

variable [TokenKind κ]

/-- The tokens of a text, all read beforehand. -/
def buffered (set : RuleSet κ) (text : String) : Buffer κ :=
  (Lexer.start set text).drain

theorem tokenize_eq_buffered (set : RuleSet κ) (text : String) :
    tokenize set text = (buffered set text).tokens? := by
  unfold tokenize Lexer.tokens Buffer.tokens? buffered
  rcases Lexer.takeTokens_ending [] (Lexer.start set text) with
    ⟨line, after, hending, htokens⟩ | ⟨e, after, hending, htokens⟩
  · rw [hending, htokens]
    rfl
  · rw [hending, htokens]
    rfl

/-- The buffer holds what is left to be read by the lexer, and the text has this ending. -/
structure Drains (ending : Except LexError Nat) (l : Lexer κ) (b : Buffer κ) : Prop where
  steady : l.Steady
  proper : l.rules.Proper
  buffer : b = l.drain
  ending : b.ending = ending

theorem Lexer.fresh_of_next {l after : Lexer κ} {t : Token κ} (h : l.next = .ok t after) :
    l.failures = [] ∧ ∃ d, l.rules.scan l.size l.cursor = .ok t d ∧
      after = { l with cursor := d } := by
  rcases l.next_cases with ⟨e, more, _, hnext⟩ | ⟨hfresh, _⟩
  · rw [hnext] at h
    cases h
  · exact ⟨hfresh, scan_of_next hfresh h⟩

/-- The end of the text is read from where nothing is left, and it is read there ever after. -/
theorem Lexer.next_end {l after : Lexer κ} {t : Token κ} (hl : l.Steady) (hproper : l.rules.Proper)
    (h : l.next = .ok t after) (ht : t.isEnd = true) :
    t = Token.endOfText t.line ∧ after.remaining = 0 ∧ after.next = .ok t after := by
  obtain ⟨hfresh, d, hscan, rfl⟩ := fresh_of_next h
  rcases RuleSet.Lexes.of_scan hscan with ⟨hnil, rfl, _⟩ | hway
  · refine ⟨rfl, ?_, ?_⟩
    · have hsize : d.position + d.rest.length = l.size := (next_ok hl h).1.size
      simp only [remaining, size, hnil, List.length_nil] at hsize ⊢
      omega
    · have hagain : l.rules.scan l.size d = .ok (Token.endOfText d.line) d := by
        rw [RuleSet.scan, RuleSet.step_of_rest_nil hnil]
      exact next_of_scan hfresh hagain
  · rw [hway.not_end hproper t List.mem_cons_self] at ht
    cases ht

theorem drains_interchangeable (ending : Except LexError Nat) :
    Interchangeable (Drains (κ := κ) ending) fun e => ending = .error e := by
  rintro l b ⟨hl, hproper, rfl, hending⟩
  cases hnext : l.next with
  | error e after =>
    have hdrain := Lexer.drain_of_error hnext
    rw [hdrain] at hending ⊢
    exact .failure hnext rfl hending.symm
  | ok t after =>
    obtain ⟨hafter, hle, hlt⟩ := Lexer.next_ok hl hnext
    have hrules : after.rules = l.rules := by
      obtain ⟨_, d, _, rfl⟩ := Lexer.fresh_of_next hnext
      rfl
    cases ht : t.isEnd with
    | false =>
      have hdrain := Lexer.drain_of_token hnext ht (hlt ht)
      rw [hdrain] at hending ⊢
      refine .token hnext rfl ⟨hafter, hrules ▸ hproper, rfl, hending⟩ ⟨?_, ?_⟩ ⟨?_, ?_⟩
      · simp only [ht, Bool.false_eq_true, ↓reduceIte]
        exact hlt ht
      · simp [ht]
      · simp [ht, Buffer.push, TokenSource.remaining]
      · simp [ht]
    | true =>
      obtain ⟨heq, hnone, hagain⟩ := Lexer.next_end hl hproper hnext ht
      have hdrain := Lexer.drain_of_end hnext ht
      rw [hdrain] at hending ⊢
      have hnext' : Buffer.next (⟨[], .ok t.line⟩ : Buffer κ) = .ok t ⟨[], .ok t.line⟩ := by
        conv_rhs => rw [heq]
        rfl
      refine .token hnext hnext' ⟨hafter, hrules ▸ hproper, ?_, hending⟩ ⟨?_, fun _ => hnone⟩
        ⟨?_, fun _ => rfl⟩
      · rw [Lexer.drain_of_end hagain ht]
      · simp only [ht, ↓reduceIte]
        exact hle
      · simp only [ht, ↓reduceIte]
        exact Nat.le_refl _

theorem drains_start {set : RuleSet κ} (hset : set.Progresses) (hproper : set.Proper)
    (text : String) :
    Drains (buffered set text).ending (Lexer.start set text) (buffered set text) :=
  ⟨Lexer.steady_start hset text, hproper, rfl, rfl⟩

/-! ### From the steps of a lexer to its buffer -/

variable {set : RuleSet κ} {text : String} {ts : List (Token κ)} {d : Cursor}

/-- The tokens on a way are the first of the buffer, so its ending is that of what lies behind. -/
theorem Lexer.drain_of_lexes {l : Lexer κ} {ending : Except LexError Nat} (hl : l.Steady)
    (hfresh : l.failures = []) (hproper : l.rules.Proper) (h : l.rules.Lexes l.cursor ts d)
    (hlast : ∀ c, l.rules.Lexes c [] d → Steady { l with cursor := c } →
      drain { l with cursor := c } = ⟨[], ending⟩) : l.drain = ⟨ts, ending⟩ := by
  induction ts generalizing l with
  | nil => exact hlast l.cursor h hl
  | cons t ts ih =>
    obtain ⟨after, hscan, more⟩ := h.scan_token hl.rules hl.size
    have hnext := next_of_scan hfresh hscan
    obtain ⟨hl', _, hlt⟩ := next_ok hl hnext
    have ht : t.isEnd = false := h.not_end hproper t List.mem_cons_self
    rw [drain_of_token hnext ht (hlt ht), ih hl' hfresh hproper more hlast]
    rfl

theorem buffered_of_end (hset : set.Progresses) (hproper : set.Proper)
    (h : set.Lexes (Cursor.start text) ts d) (hd : d.rest = []) :
    buffered set text = ⟨ts, .ok d.line⟩ := by
  refine Lexer.drain_of_lexes (Lexer.steady_start hset text) rfl hproper h fun c hway hc => ?_
  have hend : (Token.endOfText d.line : Token κ).isEnd = true := by
    simp [Token.isEnd, Token.endOfText, Token.plain]
  rw [Lexer.drain_of_end (Lexer.next_of_scan rfl (hway.scan_end hset hd hc.size)) hend]
  rfl

theorem buffered_of_failure {e : LexError} {d' : Cursor} (hset : set.Progresses)
    (hproper : set.Proper) (h : set.Lexes (Cursor.start text) ts d)
    (hstep : set.step d = .failure e d') : buffered set text = ⟨ts, .error e⟩ := by
  refine Lexer.drain_of_lexes (Lexer.steady_start hset text) rfl hproper h fun c hway hc => ?_
  exact Lexer.drain_of_error (Lexer.next_of_scan_error rfl (hway.scan_failure hset hstep hc.size))

open Vocabulary in
theorem parse_eq_parseFrom_buffered (text : String) :
    parse console text = Grammar.parseFrom (buffered console text) :=
  (Grammar.parseFrom_alike (drains_interchangeable _)
    (drains_start progresses_console proper_console text)).1

end Buffered

open Vocabulary in
/-- Parsing a text is parsing the list of its tokens. So it depends on nothing else, it succeeds
only where the text can be read to its end, and it fails for a token only by the failure that cuts
the list off. Wherever the window of a parser comes, going on with the lexer for a look and coming
back is the same as not to move it, so a parser that does so for every look ahead gives the same. An
operation that fails leaves the window as it was. -/
theorem parse_through_tokens (text : String) :
    tokenize console text = (buffered console text).tokens? ∧
    parse console text = Grammar.parseFrom (buffered console text) ∧
    (∀ other, buffered console other = buffered console text →
      parse console other = parse console text) ∧
    (∀ tree, parse console text = .ok tree → ∃ ts, tokenize console text = .ok ts) ∧
    (∀ e, parse console text = .error (.lexing e) → tokenize console text = .error e) ∧
    (∀ w, Window.Reached console text w → Parse.reread w = Parse.peek w) ∧
    (∀ r, ParsesRereading text r ↔ r = parse console text) ∧
    ∀ (w v : Window (Lexer Kind) Kind) (e : ParseError),
      (Parse.advance w = .error e v ∨ (∃ kind, Parse.consume kind w = .error e v) ∨
        Parse.reread w = .error e v) →
      v.current = w.current ∧ v.previous = w.previous ∧ v.depth = w.depth := by
  have hparse (text : String) : parse console text = Grammar.parseFrom (buffered console text) ∧
      ∀ e, parse console text = .error (.lexing e) → (buffered console text).ending = .error e :=
    Grammar.parseFrom_alike (drains_interchangeable _)
      (drains_start progresses_console proper_console text)
  have htokens := tokenize_eq_buffered console text
  refine ⟨htokens, (hparse text).1, ?_, ?_, ?_, ?_, parsesRereading_iff text, ?_⟩
  · intro other hsame
    rw [(hparse other).1, hsame, (hparse text).1]
  · intro tree htree
    obtain ⟨input, hdelivers, hunit⟩ := Grammar.parseFrom_sound htree
    obtain ⟨ts, after, last, hts, _, _⟩ := hunit.tokens_eq hdelivers
    refine ⟨ts, ?_⟩
    rw [tokenize, hts]
  · intro e he
    rw [htokens, Buffer.tokens?, (hparse text).2 e he]
    rfl
  · intro w hw
    exact Parse.reread_eq_peek (hw.intact forward_console)
  · rintro w v e (h | ⟨kind, h⟩ | h)
    · exact advance_error h
    · exact consume_error h
    · exact reread_error h

end ConsoleScript
