import Mathlib
import ConsoleScript.Proofs.Syntax.Soundness
import ConsoleScript.Proofs.Token.Progress

/-!
# Accepted texts

A text that the parser accepts can be lexed to its end, and its tokens, each of them taken once and
in order, derive the tree that the parser gives.
-/

namespace ConsoleScript

open ConsoleScript.Derivation

/-- The tokens of a derivation are those of the text, as its end is only the last of them. -/
theorem Derivation.Unit.tokens_eq {k : Nat} {input : Tokens} {tree : Node}
    (h : Derivation.Unit k input tree) {text : String}
    (hdelivers : Delivers (Lexer.start Vocabulary.console text) input) :
    ∃ ts after last, Lexer.tokens (Lexer.start Vocabulary.console text) = .ok ts after ∧
      last.kind = .endOfText ∧ input = ts ++ [last] := by
  obtain ⟨ts, last, rfl, hlast, hts⟩ := h.ends
  have hsteady := Lexer.steady_start Vocabulary.progresses_console text
  have hnone : ∀ t ∈ ts, t.isEnd = false := by
    intro t ht
    rw [Token.isEnd, beq_eq_false_iff_ne]
    exact hts t ht
  have hend : last.isEnd = true := beq_iff_eq.mpr hlast
  obtain ⟨after, htokens⟩ := Lexer.takeTokens_of_delivers hend hnone hsteady hdelivers []
  exact ⟨ts, after, last, htokens, hlast, rfl⟩

theorem parse_derives {text : String} {tree : Node}
    (h : parse Vocabulary.console text = .ok tree) :
    ∃ ts after last, Lexer.tokens (Lexer.start Vocabulary.console text) = .ok ts after ∧
      last.kind = .endOfText ∧ Derivation.Unit nestingLimit (ts ++ [last]) tree := by
  obtain ⟨input, hdelivers, hunit⟩ := Grammar.parseFrom_sound h
  obtain ⟨ts, after, last, htokens, hlast, rfl⟩ := hunit.tokens_eq hdelivers
  exact ⟨ts, after, last, htokens, hlast, hunit⟩

/-- A text in which a brace separates two statements, the second of which is on the next line. -/
theorem parse_derives_branch_loop :
    ∃ ts after last,
      Lexer.tokens (Lexer.start Vocabulary.console "if (a) \x7b print 1 \x7d\nloop 2 b = -c") =
        .ok ts after ∧ last.kind = .endOfText ∧
      Derivation.Unit nestingLimit (ts ++ [last])
        (.block [.branch (.variable "a" 1) (.block [.print (.literal (.int 1) 1) 1] 1) .none 1,
          .loop (.literal (.int 2) 2)
            (.assignment (.variable "b" 2) (.negation (.variable "c" 2) 2) 2) 2] 1) :=
  parse_derives (by cbv)

end ConsoleScript
