import Mathlib
import ConsoleScript.Console.Session
import ConsoleScript.Proofs.Evaluation.Account
import ConsoleScript.Proofs.Printing.RoundTrip
import ConsoleScript.Proofs.Syntax.Soundness
import ConsoleScript.Proofs.Syntax.Splicing
import ConsoleScript.Proofs.Token.Tokenization

/-!
# One text after the other

Two texts that parse can be joined by a semicolon on a line of its own. Running the joined text does
what running one text after the other does, up to the lines in errors and in the bodies of
functions. Only the log is different: that of the joined text has the failures of both.
-/

namespace ConsoleScript

open ConsoleScript.Derivation

/-! ### The tokens of joined texts -/

namespace Vocabulary

theorem lexes_semicolon (position line : Nat) :
    console.Lexes ⟨position, line, [';']⟩ [Token.plain .semicolon line]
      ⟨position + 1, line, []⟩ :=
  .token (by simp) rfl (.refl _)

theorem commentsClosed_semicolon (position line : Nat) :
    CommentsClosed ⟨position, line, [';']⟩ := by
  apply commentsClosed_of_suffixes
  intro chars hsuffix hopens
  have hslash : '/' ∈ [';'] := hsuffix.subset (hopens.subset List.mem_cons_self)
  simp at hslash

/-- The tokens of the second text are found behind those of the first and a semicolon, on later
lines. -/
theorem lexes_concatenation {u u' : String} {ts ts' : List (Token Kind)} {d d' : Cursor}
    (h : console.Lexes (Cursor.start u) ts d) (hd : d.rest = [])
    (hclosed : CommentsClosed (Cursor.start u))
    (h' : console.Lexes (Cursor.start u') ts' d') (hd' : d'.rest = []) :
    ∃ e, e.rest = [] ∧ console.Lexes (Cursor.start (u ++ "\n;\n" ++ u'))
      (ts ++ Token.plain .semicolon (d.line + 1) ::
        ts'.map (Token.relined (· + (d.line + 1)))) e := by
  let o : Offset := ⟨d.position + 3, d.line + 1⟩
  have hstart : o.cursor (Cursor.start u') = ⟨d.position + 3, d.line + 2, u'.toList⟩ := by
    simp only [Offset.cursor, Cursor.start, o, Cursor.mk.injEq, and_true]
    omega
  have hend : (o.cursor d').skipBlanks = o.cursor d' := Cursor.skipBlanks_of_rest_nil hd'
  have hlast := h'.moved movable_console o
  rw [hstart] at hlast
  have hsemicolon := lexes_join (lexes_semicolon (d.position + 1) (d.line + 1)) rfl
    (commentsClosed_semicolon _ _) hlast hend
  have hall := lexes_join h hd hclosed hsemicolon hend
  refine ⟨o.cursor d', hd', ?_⟩
  have htext : Cursor.start (u ++ "\n;\n" ++ u') =
      (Cursor.start u).extend ('\n' :: ';' :: '\n' :: u'.toList) := by
    simp [Cursor.start, Cursor.extend]
  rw [htext]
  exact hall

end Vocabulary

theorem exists_parse {text : String} (h : (parse Vocabulary.console text).isOk) :
    ∃ tree, parse Vocabulary.console text = .ok tree := by
  cases hparse : parse Vocabulary.console text with
  | ok tree => exact ⟨tree, rfl⟩
  | error e =>
    rw [hparse] at h
    cases h

/-- The tokens of a text that parses. -/
theorem lexes_of_parse {text : String} {tree : Node}
    (h : parse Vocabulary.console text = .ok tree) :
    ∃ ts last d, Derivation.Unit nestingLimit (ts ++ [last]) tree ∧ last.kind = .endOfText ∧
      (∀ t ∈ ts, t.kind ≠ .endOfText) ∧
      Vocabulary.console.Lexes (Cursor.start text) ts d ∧ d.rest = [] := by
  obtain ⟨input, hdelivers, hunit⟩ := Grammar.parseFrom_sound h
  obtain ⟨ts, last, rfl, hlast, hts⟩ := hunit.ends
  have hnotEnd : ∀ t ∈ ts, t.isEnd = false := fun t ht => beq_eq_false_iff_ne.mpr (hts t ht)
  obtain ⟨d, hway, hd⟩ := Lexer.lexes_of_delivers Vocabulary.proper_console rfl hdelivers hnotEnd
    (beq_iff_eq.mpr hlast)
  exact ⟨ts, last, d, hunit, hlast, hts, hway, hd⟩

theorem parse_of_lexes {text : String} {tree : Node} {ts : Tokens} {d : Cursor}
    (h : Vocabulary.console.Lexes (Cursor.start text) ts d) (hd : d.rest = [])
    (hunit : Derivation.Unit nestingLimit (ts ++ [Token.endOfText d.line]) tree) :
    parse Vocabulary.console text = .ok tree := by
  have hsteady := Lexer.steady_start Vocabulary.progresses_console text
  have hdelivers := Lexer.delivers_of_lexes hsteady rfl h hd
  have hends : ts ++ [Token.endOfText d.line, Token.endOfText d.line] =
      (ts ++ [Token.endOfText d.line]) ++ [Token.endOfText d.line] := by simp
  rw [hends] at hdelivers
  rcases hunit.parseFrom_eq (Lexer.streams_of_delivers hsteady hdelivers) with hok | ⟨hdeep, _⟩
  · exact hok
  · omega

/-- Two texts that parse also parse when they are joined, and as the statements of both. -/
theorem parse_concatenation {u u' : String} {tree tree' : Node}
    (h : parse Vocabulary.console u = .ok tree) (h' : parse Vocabulary.console u' = .ok tree')
    (hclosed : Vocabulary.CommentsClosed (Cursor.start u)) :
    ∃ nodes nodes' ns line line' line'', tree = .block nodes line ∧ tree' = .block nodes' line' ∧
      unlinedNodes ns = unlinedNodes nodes ++ unlinedNodes nodes' ∧
      parse Vocabulary.console (u ++ "\n;\n" ++ u') = .ok (.block ns line'') := by
  obtain ⟨ts, last, d, hunit, hlast, hts, hway, hd⟩ := lexes_of_parse h
  obtain ⟨ts', last', d', hunit', hlast', hts', hway', hd'⟩ := lexes_of_parse h'
  obtain ⟨e, he, hjoined⟩ := Vocabulary.lexes_concatenation hway hd hclosed hway' hd'
  obtain ⟨nodes, line, rfl⟩ := hunit.exists_block
  obtain ⟨nodes', line', rfl⟩ := hunit'.exists_block
  let semicolon : Token Kind := .plain .semicolon (d.line + 1)
  let behind := ts'.map (Token.relined (· + (d.line + 1))) ++ [Token.endOfText e.line]
  have hbehind : Respells (· + (d.line + 1)) (Token.endOfText e.line) [] (ts' ++ [last']) behind :=
    .of_tokens hts' hlast' (.inr rfl)
  have hwhole : Respells id semicolon behind (ts ++ [last])
      (ts.map (Token.relined id) ++ semicolon :: behind) :=
    .of_tokens hts hlast (.inl rfl)
  have hsame : ts.map (Token.relined id) = ts := List.map_id ts
  rw [hsame] at hwhole
  obtain ⟨ns, line'', hns, hderived⟩ := hunit.joined hunit' rfl rfl hwhole hbehind
  refine ⟨nodes, nodes', ns, line, line', line'', rfl, rfl, hns, parse_of_lexes hjoined he ?_⟩
  rw [List.append_assoc, List.cons_append]
  exact hderived

/-! ### The statements of joined texts -/

mutual

theorem Node.relined_zero (n : Node) : n.relined (fun _ => 0) = n.unlined := by
  match n with
  | .literal .. | .variable .. | .noOp .. => rfl
  | .negation operand _ | .function _ _ _ operand _ | .print operand _ | .typeOf operand _
  | .returning operand _ =>
    simp only [Node.relined, Node.unlined, operand.relined_zero]
  | .binary left _ right _ | .assignment left right _ | .loop left right _ =>
    simp only [Node.relined, Node.unlined, left.relined_zero, right.relined_zero]
  | .declaration _ _ initializer _ =>
    simp only [Node.relined, Node.unlined, relinedOption_zero initializer]
  | .block nodes _ | .call _ nodes _ =>
    simp only [Node.relined, Node.unlined, relinedNodes_zero nodes]
  | .branch condition thenBody elseBody _ =>
    simp only [Node.relined, Node.unlined, condition.relined_zero, thenBody.relined_zero,
      relinedOption_zero elseBody]

theorem relinedOption_zero (n : Option Node) :
    relinedOption (fun _ => 0) n = unlinedOption n := by
  match n with
  | none => rfl
  | some n => rw [relinedOption, unlinedOption, n.relined_zero]

theorem relinedNodes_zero (nodes : List Node) :
    relinedNodes (fun _ => 0) nodes = unlinedNodes nodes := by
  match nodes with
  | [] => rfl
  | n :: nodes => rw [relinedNodes, unlinedNodes, n.relined_zero, relinedNodes_zero nodes]

end

namespace Eval

theorem statements_cons (result : Option Value) (n : Node) (nodes : List Node) (s : State) :
    statements result (n :: nodes) s =
      statements ((orLog (node n) s).1 <|> result) nodes (orLog (node n) s).2 :=
  rfl

theorem statements_append (result : Option Value) (nodes more : List Node) (s : State) :
    statements result (nodes ++ more) s =
      statements (statements result nodes s).1 more (statements result nodes s).2 := by
  induction nodes generalizing result s with
  | nil => rfl
  | cons n nodes ih => rw [List.cons_append, statements_cons, statements_cons, ih]

/-- The value from before is kept where no statement has one. -/
theorem statements_eq_none (result : Option Value) (nodes : List Node) (s : State) :
    statements result nodes s =
      ((statements none nodes s).1 <|> result, (statements none nodes s).2) := by
  induction nodes generalizing result s with
  | nil => rfl
  | cons n nodes ih =>
    rw [statements_cons, statements_cons, ih, ih ((orLog (node n) s).1 <|> none)]
    cases (orLog (node n) s).1 <;> simp

end Eval

namespace Account

variable (a : Account)

theorem Retells.orLog {a : Account} {act act' : Eval (Option Value)}
    (h : a.Retells id act act') (s : State) :
    Eval.orLog act' (a.state s) = ((Eval.orLog act s).1, a.state (Eval.orLog act s).2) := by
  unfold Eval.orLog
  rw [h s]
  cases act s with
  | ok value t => rfl
  | error e t => exact congrArg (Prod.mk none) (state_log e t)

theorem statements_relined (result : Option Value) (nodes : List Node) (s : State) :
    Eval.statements result (relinedNodes a.line nodes) (a.state s) =
      ((Eval.statements result nodes s).1, a.state (Eval.statements result nodes s).2) := by
  induction nodes generalizing result s with
  | nil => rfl
  | cons n nodes ih =>
    rw [relinedNodes, Eval.statements_cons, Eval.statements_cons, (retells_node n).orLog s, ih]

end Account

namespace State

/-- The state with line zero in its log and in the bodies of its functions. -/
def unlined (s : State) : State :=
  { s with
    registry := s.registry.relined fun _ => 0
    errors := s.errors.map (EvalError.relined fun _ => 0) }

/-- The state with earlier failures in its log. -/
def withEarlier (errors : Array EvalError) (s : State) : State :=
  { s with errors := errors ++ s.errors }

theorem withEarlier_empty (s : State) : s.withEarlier #[] = s := by
  simp [withEarlier]

theorem withEarlier_clearErrors (s : State) :
    s.clearErrors.unlined.withEarlier s.unlined.errors = s.unlined := by
  simp [withEarlier, unlined, clearErrors]

end State

theorem Account.state_eq_unlined (errors : Array EvalError) (s : State) :
    Account.state ⟨fun _ => 0, errors, .empty⟩ s = s.unlined.withEarlier errors := by
  simp [Account.state, State.withEarlier, State.unlined, Output.empty]

namespace Eval

/-- Lines do not matter to statements, nor does what is in the log before them. -/
theorem statements_unlined (errors : Array EvalError) (result : Option Value) (nodes : List Node)
    (s : State) :
    statements result (unlinedNodes nodes) (s.unlined.withEarlier errors) =
      ((statements result nodes s).1,
        (statements result nodes s).2.unlined.withEarlier errors) := by
  rw [← relinedNodes_zero, ← Account.state_eq_unlined, ← Account.state_eq_unlined]
  exact Account.statements_relined ⟨fun _ => 0, errors, .empty⟩ result nodes s

theorem statements_joined {nodes nodes' ns : List Node}
    (hns : unlinedNodes ns = unlinedNodes nodes ++ unlinedNodes nodes') {s first second : State}
    {value value' : Option Value} (hfirst : statements none nodes s = (value, first))
    (hsecond : statements none nodes' first.clearErrors = (value', second)) :
    ∃ joined, statements none ns s = (value' <|> value, joined) ∧
      joined.unlined = second.unlined.withEarlier first.unlined.errors := by
  have hnodes := statements_unlined #[] none nodes s
  rw [hfirst, State.withEarlier_empty, State.withEarlier_empty] at hnodes
  have hnodes' := statements_unlined first.unlined.errors value nodes' first.clearErrors
  rw [State.withEarlier_clearErrors, statements_eq_none value nodes', hsecond] at hnodes'
  have hall := statements_unlined #[] none ns s
  rw [State.withEarlier_empty, State.withEarlier_empty, hns, statements_append, hnodes,
    hnodes'] at hall
  cases hrun : statements none ns s with
  | mk result joined =>
    rw [hrun] at hall
    obtain ⟨rfl, hjoined⟩ := Prod.mk.inj hall
    exact ⟨joined, rfl, hjoined.symm⟩

end Eval

theorem Session.run_of_parse {text : String} {nodes : List Node} {line : Nat}
    (h : parse Vocabulary.console text = .ok (.block nodes line)) (s : State) :
    run text s = (.ok (Eval.statements none nodes s.clearErrors).1,
      (Eval.statements none nodes s.clearErrors).2) := by
  unfold run
  rw [h]
  rfl

/-- The joined text parses. From every state it leaves, up to lines, the variables, the functions
and the output that the two texts leave one after the other. Its log is that of the first followed
by that of the second, and its value is that of the second, or of the first where the second has
none. -/
theorem run_concatenation {u u' : String} (h : (parse Vocabulary.console u).isOk)
    (h' : (parse Vocabulary.console u').isOk)
    (hclosed : Vocabulary.CommentsClosed (Cursor.start u)) (s : State) :
    (parse Vocabulary.console (u ++ "\n;\n" ++ u')).isOk ∧
    ∃ value first value' second joined,
      Session.run u s = (.ok value, first) ∧ Session.run u' first = (.ok value', second) ∧
      Session.run (u ++ "\n;\n" ++ u') s = (.ok (value' <|> value), joined) ∧
      joined.unlined = second.unlined.withEarlier first.unlined.errors := by
  obtain ⟨tree, htree⟩ := exists_parse h
  obtain ⟨tree', htree'⟩ := exists_parse h'
  obtain ⟨nodes, nodes', ns, line, line', line'', rfl, rfl, hns, hparse⟩ :=
    parse_concatenation htree htree' hclosed
  obtain ⟨joined, hrun, hjoined⟩ := Eval.statements_joined hns (s := s.clearErrors) rfl rfl
  refine ⟨by rw [hparse]; rfl, _, _, _, _, joined, Session.run_of_parse htree s,
    Session.run_of_parse htree' _, ?_, hjoined⟩
  rw [Session.run_of_parse hparse, hrun]

/-- A statement that fails, a comment in a definition, and a branch that has no body before a
comment that goes on to the end. -/
def unfinished : String :=
  "print y;\nfunc int twice(int n) /* a copy */ n + n;\nif (true) // nothing"

def resumed : String :=
  "print twice(1); print z"

/-- Each text logs its own failure on its first line. In the joined text the second of them is on
the fifth. -/
theorem run_concatenation_unfinished :
    (parse Vocabulary.console unfinished).isOk ∧ (parse Vocabulary.console resumed).isOk ∧
      Vocabulary.CommentsClosed (Cursor.start unfinished) ∧
      (parse Vocabulary.console (unfinished ++ "\n;\n" ++ resumed)).isOk ∧
      ∃ value first value' second joined,
        Session.run unfinished State.initial = (.ok value, first) ∧
        Session.run resumed first = (.ok value', second) ∧
        Session.run (unfinished ++ "\n;\n" ++ resumed) State.initial =
          (.ok (value' <|> value), joined) ∧
        joined.unlined = second.unlined.withEarlier first.unlined.errors ∧
        first.errors = #[.unknownVariable "y" 1] ∧ second.errors = #[.unknownVariable "z" 1] ∧
        joined.errors = #[.unknownVariable "y" 1, .unknownVariable "z" 5] ∧
        joined.output.lines = #["2"] := by
  have hclosed : Vocabulary.CommentsClosed (Cursor.start unfinished) := by
    apply Vocabulary.commentsClosed_of_suffixes
    intro chars hsuffix hopens
    have htails : ∀ w ∈ unfinished.toList.tails, "/*".toList <+: w → "*/".toList <:+: w.drop 2 := by
      decide +kernel
    exact htails chars ((List.mem_tails _ _).mpr hsuffix) hopens
  have hruns : (parse Vocabulary.console unfinished).isOk ∧
      (parse Vocabulary.console resumed).isOk ∧
      (Session.run unfinished State.initial).2.errors = #[.unknownVariable "y" 1] ∧
      (Session.run resumed (Session.run unfinished State.initial).2).2.errors =
        #[.unknownVariable "z" 1] ∧
      (Session.run (unfinished ++ "\n;\n" ++ resumed) State.initial).2.errors =
        #[.unknownVariable "y" 1, .unknownVariable "z" 5] ∧
      (Session.run (unfinished ++ "\n;\n" ++ resumed) State.initial).2.output.lines = #["2"] := by
    cbv
  obtain ⟨h, h', hlogs⟩ := hruns
  obtain ⟨hparse, value, first, value', second, joined, hfirst, hsecond, hjoined, hstate⟩ :=
    run_concatenation h h' hclosed State.initial
  rw [hfirst, hsecond, hjoined] at hlogs
  exact ⟨h, h', hclosed, hparse, value, first, value', second, joined, hfirst, hsecond, hjoined,
    hstate, hlogs⟩

end ConsoleScript
