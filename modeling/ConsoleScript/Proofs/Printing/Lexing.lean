import ConsoleScript.Proofs.Printing.Spelling

/-!
# Printed texts are lexed to their words

The lexer reads the text of a list of words as the tokens of the words, and then the end. Which
lines the tokens are on depends on the line breaks inside strings, and is left open here.
-/

namespace ConsoleScript

def Token.unlined {κ : Type} (t : Token κ) : Token κ :=
  { t with line := 0 }

namespace Printing

open Text Vocabulary

/-- The tokens are those of the words, on whatever lines. -/
def Spells (ts : List (Token Kind)) (words : List Word) : Prop :=
  ts.map Token.unlined = words.map (Word.token 0)

theorem Word.kind_ne_end (w : Word) (line : Nat) : (w.token line).kind ≠ .endOfText := by
  rcases w with m | n | k
  · cases m <;> exact Kind.noConfusion
  · exact Kind.noConfusion
  · cases k with
    | bool b => cases b <;> exact Kind.noConfusion
    | _ => exact Kind.noConfusion

/-- No word is empty or begins with white space, or it would not be read as its token. -/
theorem Word.exists_head (w : Word) : ∃ x xs, w.text.toList = x :: xs ∧ isBlank x = false := by
  obtain ⟨after, hstep, hpasses⟩ :=
    step_word w (c := ⟨0, 1, w.text.toList⟩) ⟨(List.append_nil _).symm, .inl rfl⟩
  cases hchars : w.text.toList with
  | nil =>
    have hend := w.kind_ne_end 1
    rw [hchars] at hstep
    simp only [RuleSet.step, Cursor.atEnd, List.isEmpty_nil, ↓reduceIte] at hstep
    injection hstep with htoken
    rw [← htoken] at hend
    exact absurd rfl hend
  | cons x xs =>
    refine ⟨x, xs, rfl, ?_⟩
    rw [Bool.eq_false_iff]
    intro hblank
    rw [hchars] at hstep
    simp [RuleSet.step, Cursor.atEnd, Cursor.current, Cursor.lookahead, hblank] at hstep

def joined (words : List Word) : List Char :=
  List.intercalate [' '] (words.map (·.text.toList))

theorem joined_cons (w : Word) (words : List Word) :
    ∃ tail, joined (w :: words) = w.text.toList ++ tail ∧ WordEnd tail ∧
      (words = [] ∧ tail = [] ∨ words ≠ [] ∧ tail = ' ' :: joined words) := by
  cases words with
  | nil => exact ⟨[], by simp [joined], .inl rfl, .inl ⟨rfl, rfl⟩⟩
  | cons v words =>
    refine ⟨' ' :: joined (v :: words), ?_, .inr ⟨_, rfl⟩, .inr ⟨List.cons_ne_nil _ _, rfl⟩⟩
    simp [joined, List.intercalate]

theorem scan_word {w : Word} {c : Cursor} {tail : List Char} (h : Stands w.text.toList c tail)
    (size : Nat) :
    ∃ after, console.scan size c = .ok (w.token c.line) after ∧ c.Passes w.text.toList after := by
  obtain ⟨after, hstep, hpasses⟩ := step_word w h
  refine ⟨after, ?_, hpasses⟩
  rw [RuleSet.scan, hstep]

theorem scan_space {w : Word} {c : Cursor} {rest : List Char}
    (h : c.rest = ' ' :: (w.text.toList ++ rest)) {size : Nat}
    (hsize : c.position + c.rest.length = size) :
    ∃ c', console.scan size c = console.scan size c' ∧ c.Passes [' '] c' := by
  obtain ⟨x, xs, hchars, hx⟩ := w.exists_head
  have hrun : c.run isBlank = [' '] := run_eq h (List.forall_mem_singleton.mpr rfl) fun y hy => by
    rw [hchars] at hy
    cases hy
    exact hx
  have hpasses := passes_of_run hrun
  refine ⟨c.skipBlanks, ?_, hpasses⟩
  have hstep : console.step c = .skipped c.skipBlanks := by
    simp only [RuleSet.step, Cursor.atEnd, h, List.isEmpty_cons, current_eq h]
    rfl
  have hposition : c.skipBlanks.position = c.position + 1 := hpasses.position
  have hmoved : size - c.skipBlanks.position < size - c.position := by
    rw [h, List.length_cons] at hsize
    omega
  rw [RuleSet.scan, hstep]
  simp only [hmoved, ↓reduceDIte]

/-- A lexer of the console language that has not failed. -/
structure Fresh (l : Lexer Kind) : Prop where
  rules : l.rules = console
  failures : l.failures = []
  steady : l.Steady

theorem Fresh.next_eq {l : Lexer Kind} (hl : Fresh l) {t : Token Kind} {after : Cursor}
    (hscan : console.scan l.size l.cursor = .ok t after) :
    l.next = .ok t { l with cursor := after } ∧ Fresh { l with cursor := after } := by
  have hnext : l.next = .ok t { l with cursor := after } := by
    simp only [Lexer.next, hl.failures, hl.rules, hscan]
  exact ⟨hnext, hl.rules, hl.failures, (Lexer.next_ok hl.steady hnext).1⟩

/-- The cursor is at the first of the words, or at the space before it. -/
def AtWords (l : Lexer Kind) (words : List Word) : Prop :=
  l.cursor.rest = joined words ∨ words ≠ [] ∧ l.cursor.rest = ' ' :: joined words

theorem Fresh.next_word {l : Lexer Kind} (hl : Fresh l) {w : Word} {words : List Word}
    (hat : AtWords l (w :: words)) :
    ∃ line l', l.next = .ok (w.token line) l' ∧ Fresh l' ∧ AtWords l' words := by
  obtain ⟨tail, hjoined, hwordEnd, htail⟩ := joined_cons w words
  have hfound : ∃ c, console.scan l.size l.cursor = console.scan l.size c ∧
      c.rest = w.text.toList ++ tail := by
    rcases hat with hrest | ⟨_, hrest⟩
    · exact ⟨l.cursor, rfl, hrest.trans hjoined⟩
    · rw [hjoined] at hrest
      obtain ⟨c, hscan, hpasses⟩ := scan_space hrest hl.steady.size
      exact ⟨c, hscan, hpasses.rest_eq hrest⟩
  obtain ⟨c, hsame, hrest⟩ := hfound
  obtain ⟨after, hscan, hpasses⟩ := scan_word ⟨hrest, hwordEnd⟩ l.size
  obtain ⟨hnext, hfresh⟩ := hl.next_eq (hsame.trans hscan)
  have hafter : after.rest = tail := hpasses.rest_eq hrest
  refine ⟨c.line, _, hnext, hfresh, ?_⟩
  rcases htail with ⟨rfl, rfl⟩ | ⟨hwords, rfl⟩
  · exact .inl hafter
  · exact .inr ⟨hwords, hafter⟩

theorem Fresh.delivers_words {words : List Word} {l : Lexer Kind} (hl : Fresh l)
    (hat : AtWords l words) :
    ∃ ts last, Delivers l (ts ++ [last, last]) ∧ Spells ts words ∧ last.kind = .endOfText := by
  induction words generalizing l with
  | nil =>
    have hrest : l.cursor.rest = [] := by
      rcases hat with hrest | ⟨hne, _⟩
      · exact hrest
      · exact absurd rfl hne
    have hscan : console.scan l.size l.cursor = .ok (.endOfText l.cursor.line) l.cursor := by
      rw [RuleSet.scan, RuleSet.step, if_pos (l.cursor.atEnd_iff.mpr hrest)]
    have hnext : TokenSource.next l = .ok (.endOfText l.cursor.line) l := (hl.next_eq hscan).1
    exact ⟨[], _, .cons hnext (.cons hnext (.nil l)), rfl, rfl⟩
  | cons w words ih =>
    obtain ⟨line, l', hnext, hl', hat'⟩ := hl.next_word hat
    obtain ⟨ts, last, hdelivers, hspells, hlast⟩ := ih hl' hat'
    refine ⟨w.token line :: ts, last, .cons hnext hdelivers, ?_, hlast⟩
    have htoken : (w.token line).unlined = w.token 0 := by cases w <;> rfl
    rw [Spells, List.map_cons, List.map_cons, htoken, hspells]

/-- The text of words gives their tokens, and then the end of the text as often as it is asked
for. -/
theorem delivers_text (words : List Word) :
    ∃ ts last, Delivers (Lexer.start console (" ".intercalate (words.map Word.text)))
      (ts ++ [last, last]) ∧ Spells ts words ∧ last.kind = .endOfText := by
  refine Fresh.delivers_words ⟨rfl, rfl, Lexer.steady_start progresses_console _⟩ (.inl ?_)
  simp [Lexer.start, Cursor.start, joined, String.toList_intercalate, Function.comp_def]

end Printing

end ConsoleScript
