import ConsoleScript.Proofs.Printing.Lexing
import ConsoleScript.Proofs.Printing.Statements
import ConsoleScript.Proofs.Syntax.Completeness

/-!
# Parsing what was printed

The text of a printed program is parsed as the program, up to the lines of its nodes. The one way in
which this can fail is that the program is nested too deeply for the parser.
-/

namespace ConsoleScript

open ConsoleScript.Derivation

theorem Lexer.streams_of_delivers {ts : Tokens} {t : Token Kind} {l : Lexer Kind} (hl : l.Steady)
    (h : Delivers l (ts ++ [t])) : Streams l ts := by
  induction ts generalizing l with
  | nil =>
    cases h with
    | cons hnext _ => exact .nil hnext
  | cons t ts ih =>
    cases h with
    | cons hnext hmore =>
      obtain ⟨hl', hle, hlt⟩ := Lexer.next_ok hl hnext
      refine .cons hnext ?_ (ih hl' hmore)
      split
      · exact hle
      · exact hlt (Bool.eq_false_iff.mpr ‹_›)

namespace Printing

/-- The text of a program gives its tokens and then the end of the text. -/
theorem exists_tokens (program : List Stmt) :
    ∃ ts last, Streams (Lexer.start Vocabulary.console (print program)) (ts ++ [last]) ∧
      Spells ts (programWords program) ∧ last.kind = .endOfText := by
  obtain ⟨ts, last, hdelivers, hts, hlast⟩ := delivers_text (programWords program)
  have hends : ts ++ [last, last] = (ts ++ [last]) ++ [last] := by simp
  rw [hends] at hdelivers
  have hsteady := Lexer.steady_start Vocabulary.progresses_console (print program)
  exact ⟨ts, last, Lexer.streams_of_delivers hsteady hdelivers, hts, hlast⟩

theorem derives_program (program : List Stmt) {ts : Tokens} {last : Token Kind}
    (hts : Spells ts (programWords program)) (hlast : last.kind = .endOfText) :
    ∃ tree, tree.unlined = .block (statementNodes program) 0 ∧
      Derivation.Unit (statementLevels program) (ts ++ [last]) tree := by
  obtain ⟨nodes, hnodes, hstatements⟩ := bodyDerived program ts hts
  obtain ⟨t, input, heq⟩ : ∃ t input, ts ++ [last] = t :: input :=
    List.exists_cons_of_ne_nil (by simp)
  refine ⟨.block nodes t.line, by rw [Node.unlined, hnodes], ?_⟩
  have hderived := hstatements _ (Nat.le_refl _) .endOfText last [] (.inr (.inr rfl)) (by decide)
    hlast
  rw [heq] at hderived ⊢
  exact .statements hderived

theorem parse_print (program : List Stmt) :
    (∃ tree, parse Vocabulary.console (print program) = .ok tree ∧
      tree.unlined = .block (statementNodes program) 0) ∨
    (nestingLimit < statementLevels program ∧ ∃ line,
      parse Vocabulary.console (print program) = .error (.nestingTooDeep nestingLimit line)) := by
  obtain ⟨ts, last, hstreams, hts, hlast⟩ := exists_tokens program
  obtain ⟨tree, htree, hunit⟩ := derives_program program hts hlast
  rcases hunit.parseFrom_eq hstreams with hok | herror
  · exact .inl ⟨tree, hok, htree⟩
  · exact .inr herror

end Printing

end ConsoleScript
