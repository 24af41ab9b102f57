import Mathlib
import ConsoleScript.Proofs.Source.Movement
import ConsoleScript.Proofs.Token.Lexemes

/-!
# Strings in quotes

A string is quoted by a backslash before each of its quotes, and by nothing else: a backslash before
any other character stands for itself. So every string has one quotation, except that a backslash at
its end would take away the meaning of the closing quote. The reader gives the string back and takes
its quotation, no less and no more, and it fails only where no quotation begins.
-/

namespace ConsoleScript

open Vocabulary

/-- A string between quotes, with a backslash before each quote in it. -/
def quotation (s : String) : List Char :=
  '"' :: s.toList.flatMap Printing.Constant.escape ++ ['"']

/-- The text begins with the quotation of a string, which does not end in a backslash. -/
structure Quotes (text : List Char) (s : String) (rest : List Char) : Prop where
  last : s.toList.getLast? ≠ some '\\'
  text : text = quotation s ++ rest

theorem count_escape (chars : List Char) :
    (chars.flatMap Printing.Constant.escape).count '\n' = chars.count '\n' := by
  induction chars with
  | nil => rfl
  | cons x chars ih =>
    by_cases hx : x = '"'
    · simp [Printing.Constant.escape, hx, ih]
    · simp [Printing.Constant.escape, hx, ih, List.count_cons]

/-- Quotation adds no line break. -/
theorem count_quotation (s : String) : (quotation s).count '\n' = s.toList.count '\n' := by
  simp [quotation, count_escape]

namespace Scan

variable {c d : Cursor} {s : String} {rest : List Char}

theorem readString_of_quotes (h : Quotes c.rest s rest) : readString c =
    .ok s ⟨c.position + (quotation s).length, c.line + s.toList.count '\n', rest⟩ := by
  obtain ⟨after, hread, hpasses⟩ := Printing.readString_eq h.last h.text
  have honward := forward_readString c
  rw [hread] at honward
  have hafter : after.rest = rest := hpasses.rest_eq h.text
  have hposition : after.position = c.position + (quotation s).length := hpasses.position
  have hline : after.line = c.line + (quotation s).count '\n' := honward.line_eq hpasses
  rw [hread, ← hafter, ← hposition, ← count_quotation, ← hline]

theorem quotes_of_readString (hopens : c.current = '"') (h : readString c = .ok s d) :
    Quotes c.rest s d.rest ∧ c.Passes (quotation s) d := by
  obtain ⟨lexeme, hpasses, hspelled⟩ := spelled_string (by simp [startsString, hopens]) h
  cases hspelled with
  | string hlast => exact ⟨⟨hlast, hpasses.rest⟩, hpasses⟩

theorem error_of_readString {e : LexError} (h : readString c = .error e d) :
    e = .unterminatedString c.line := by
  unfold readString at h
  dsimp only at h
  split at h <;> cases h
  rfl

end Scan

/-- From an opening quote on, the reader gives a string exactly if its quotation is there, and is
then behind it, having counted the line breaks of the string. It fails exactly if there is no
quotation, and then names the line of the opening quote. -/
theorem string_read_iff_quoted {c : Cursor} (hopens : c.current = '"') :
    (∀ s rest, Quotes c.rest s rest → Scan.readString c =
      .ok s ⟨c.position + (quotation s).length, c.line + s.toList.count '\n', rest⟩) ∧
    (∀ s d, Scan.readString c = .ok s d →
      Quotes c.rest s d.rest ∧ c.Passes (quotation s) d) ∧
    ((∃ d, Scan.readString c = .error (.unterminatedString c.line) d) ↔
      ¬ ∃ s rest, Quotes c.rest s rest) ∧
    ∀ e d, Scan.readString c = .error e d → e = .unterminatedString c.line := by
  refine ⟨fun s rest => Scan.readString_of_quotes, fun s d => Scan.quotes_of_readString hopens,
    ⟨?_, ?_⟩, fun e d => Scan.error_of_readString⟩
  · rintro ⟨d, herror⟩ ⟨s, rest, hquotes⟩
    cases herror.symm.trans (Scan.readString_of_quotes hquotes)
  · intro hnone
    cases hread : Scan.readString c with
    | ok s d => exact absurd ⟨s, d.rest, (Scan.quotes_of_readString hopens hread).1⟩ hnone
    | error e d => exact ⟨d, by rw [Scan.error_of_readString hread]⟩

/-- Backslashes before an escaped quote, a line break and a backslash that stands for itself; and a
backslash that escapes the last quote of a text. -/
theorem string_read_iff_quoted_backslashes :
    (Cursor.start "\"a\\\\\"\n\\b\"+1").current = '"' ∧
      Quotes "\"a\\\\\"\n\\b\"+1".toList "a\\\"\n\\b" ['+', '1'] ∧
      Scan.readString (Cursor.start "\"a\\\\\"\n\\b\"+1") =
        .ok "a\\\"\n\\b" ⟨9, 2, ['+', '1']⟩ ∧
    (Cursor.start "\"a\\\"").current = '"' ∧
      ¬ ∃ s rest, Quotes "\"a\\\"".toList s rest := by
  have hopens : (Cursor.start "\"a\\\\\"\n\\b\"+1").current = '"' := rfl
  have hquotes : Quotes "\"a\\\\\"\n\\b\"+1".toList "a\\\"\n\\b" ['+', '1'] :=
    ⟨by decide, rfl⟩
  have hopens' : (Cursor.start "\"a\\\"").current = '"' := rfl
  have hfails : Scan.readString (Cursor.start "\"a\\\"") =
      .error (.unterminatedString 1) ⟨4, 1, []⟩ := rfl
  exact ⟨hopens, hquotes, (string_read_iff_quoted hopens).1 _ _ hquotes, hopens',
    (string_read_iff_quoted hopens').2.2.1.mp ⟨_, hfails⟩⟩

end ConsoleScript
