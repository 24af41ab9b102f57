import Mathlib
import ConsoleScript.Proofs.Source.Movement
import ConsoleScript.Proofs.Token.Joining

/-!
# The tokens of a whole text

From the start of a text the lexer goes on to the end of it, or to a place where its step fails. That
place and the tokens on the way to it are all there is to the outcome, so what is known of ways
becomes known of texts.
-/

namespace ConsoleScript

open Text

variable {κ : Type} [TokenKind κ]

namespace RuleSet

variable {set : RuleSet κ} {c d d' : Cursor} {ts : List (Token κ)} {e : LexError}

namespace Lexes

theorem onward (hset : set.Forward) (h : set.Lexes c ts d) : c.Onward d := by
  have hsteps := step_onward hset
  induction h with
  | refl c => exact .refl c
  | @token c after d t ts _ hstep _ ih =>
    have honward := hsteps c
    rw [hstep] at honward
    exact honward.trans ih
  | @skipped c after d ts hstep _ ih =>
    have honward := hsteps c
    rw [hstep] at honward
    exact honward.trans ih

theorem rest_suffix (hset : set.Forward) (h : set.Lexes c ts d) : d.rest <:+ c.rest := by
  obtain ⟨n, rfl⟩ := h.onward hset
  rw [Cursor.rest_advanceBy]
  exact List.drop_suffix n c.rest

theorem scan_failure (hset : set.Progresses) (h : set.Lexes c [] d)
    (hstep : set.step d = .failure e d') {size : Nat}
    (hsize : c.position + c.rest.length = size) : set.scan size c = .error e d' := by
  generalize hts : ([] : List (Token κ)) = ts at h
  induction h with
  | refl c => rw [scan, hstep]
  | token => cases hts
  | skipped hskip _ ih =>
    obtain ⟨hscan, hsize'⟩ := scan_of_skipped hset hsize hskip
    rw [hscan]
    exact ih hstep hsize' hts

end Lexes

theorem not_blank_of_failure (h : set.step c = .failure e d) :
    c.rest ≠ [] ∧ isBlank c.current = false := by
  have hne : c.rest ≠ [] := by
    intro hnil
    rw [step_of_rest_nil hnil] at h
    cases h
  refine ⟨hne, ?_⟩
  by_contra hblank
  rw [step_of_blank hne (by simpa using hblank)] at h
  cases h

/-- From every place the lexer comes to the end of the text or to a failure. -/
theorem exists_lexes (hset : set.Progresses) (c : Cursor) :
    ∃ ts d, set.Lexes c ts d ∧ (d.rest = [] ∨ ∃ e d', set.step d = .failure e d') := by
  induction hlength : c.rest.length using Nat.strong_induction_on generalizing c with
  | _ n ih =>
    by_cases hnil : c.rest = []
    · exact ⟨[], c, .refl c, .inl hnil⟩
    have hprogress := step_progresses hset c
    have hlater : ∀ {taken : List Char} {after : Cursor}, c.Passes taken after → taken ≠ [] →
        ∃ ts d, set.Lexes after ts d ∧ (d.rest = [] ∨ ∃ e d', set.step d = .failure e d') := by
      intro taken after hpasses hne
      refine ih after.rest.length ?_ after rfl
      have htaken : 0 < taken.length := List.length_pos_iff.mpr hne
      rw [← hlength, hpasses.rest, List.length_append]
      omega
    cases hstep : set.step c with
    | token t after =>
      rw [hstep] at hprogress
      rcases hprogress with ⟨hrest, _⟩ | ⟨taken, hpasses, hne⟩
      · exact absurd hrest hnil
      · obtain ⟨ts, d, hway, hend⟩ := hlater hpasses hne
        exact ⟨t :: ts, d, .token hnil hstep hway, hend⟩
    | failure e d' => exact ⟨[], c, .refl c, .inr ⟨e, d', hstep⟩⟩
    | skipped after =>
      rw [hstep] at hprogress
      obtain ⟨taken, hpasses, hne⟩ := hprogress
      obtain ⟨ts, d, hway, hend⟩ := hlater hpasses hne
      exact ⟨ts, d, .skipped hstep hway, hend⟩

end RuleSet

namespace Lexer

variable {l : Lexer κ} {d : Cursor} {ts : List (Token κ)}

/-- The tokens on a way are taken one by one, up to the text behind the last of them that gives no
token. -/
theorem takeTokens_of_lexes (hl : l.Steady) (hfresh : l.failures = []) (hproper : l.rules.Proper)
    (h : l.rules.Lexes l.cursor ts d) (taken : List (Token κ)) :
    ∃ c, l.rules.Lexes c [] d ∧ Steady { l with cursor := c } ∧
      takeTokens taken l = takeTokens (ts.reverse ++ taken) { l with cursor := c } := by
  induction ts generalizing l taken with
  | nil => exact ⟨l.cursor, h, hl, rfl⟩
  | cons t ts ih =>
    obtain ⟨after, hscan, more⟩ := h.scan_token hl.rules hl.size
    have hnext := next_of_scan hfresh hscan
    obtain ⟨hl', _, hlt⟩ := next_ok hl hnext
    have ht : t.isEnd = false := h.not_end hproper t List.mem_cons_self
    obtain ⟨c, hway, hc, htake⟩ := ih hl' hfresh hproper more (t :: taken)
    refine ⟨c, hway, hc, ?_⟩
    rw [takeTokens, hnext]
    simp only [ht, Bool.false_eq_true, ↓reduceIte, hlt ht, ↓reduceDIte, htake]
    simp

theorem takeTokens_of_end (hl : l.Steady) (hfresh : l.failures = [])
    (h : l.rules.Lexes l.cursor [] d) (hd : d.rest = []) (taken : List (Token κ)) :
    takeTokens taken l = .ok taken.reverse { l with cursor := d } := by
  have hend : (Token.endOfText d.line : Token κ).isEnd := by
    simp [Token.isEnd, Token.endOfText, Token.plain]
  rw [takeTokens, next_of_scan hfresh (h.scan_end hl.rules hd hl.size)]
  simp only [hend, ↓reduceIte]

theorem takeTokens_of_failure {e : LexError} {d' : Cursor} (hl : l.Steady)
    (hfresh : l.failures = []) (h : l.rules.Lexes l.cursor [] d)
    (hstep : l.rules.step d = .failure e d') (taken : List (Token κ)) :
    takeTokens taken l = .error e (fail e { l with cursor := d' }) := by
  have hscan := h.scan_failure hl.rules hstep hl.size
  simp only [takeTokens, next, hfresh, hscan]

end Lexer

/-- The tokens of a whole text, or the first failure in it. -/
def tokenize (set : RuleSet κ) (text : String) : Except LexError (List (Token κ)) :=
  match Lexer.tokens (Lexer.start set text) with
  | .ok ts _ => .ok ts
  | .error e _ => .error e

section Tokenize

variable {set : RuleSet κ} {text : String} {d d' : Cursor} {ts : List (Token κ)} {e : LexError}

theorem tokenize_of_lexes (hset : set.Progresses) (hproper : set.Proper)
    (h : set.Lexes (Cursor.start text) ts d) (hd : d.rest = []) : tokenize set text = .ok ts := by
  obtain ⟨c, hway, hc, htake⟩ :=
    Lexer.takeTokens_of_lexes (Lexer.steady_start hset text) rfl hproper h []
  rw [tokenize, Lexer.tokens, htake, Lexer.takeTokens_of_end hc rfl hway hd]
  simp

theorem tokenize_of_failure (hset : set.Progresses) (hproper : set.Proper)
    (h : set.Lexes (Cursor.start text) ts d) (hstep : set.step d = .failure e d') :
    tokenize set text = .error e := by
  obtain ⟨c, hway, hc, htake⟩ :=
    Lexer.takeTokens_of_lexes (Lexer.steady_start hset text) rfl hproper h []
  rw [tokenize, Lexer.tokens, htake, Lexer.takeTokens_of_failure hc rfl hway hstep]

/-- The way behind an outcome. -/
theorem lexes_of_tokenize (hset : set.Progresses) (hproper : set.Proper) (text : String) :
    ∃ ts d, set.Lexes (Cursor.start text) ts d ∧
      (d.rest = [] ∧ tokenize set text = .ok ts ∨
        ∃ e d', set.step d = .failure e d' ∧ tokenize set text = .error e) := by
  obtain ⟨ts, d, hway, hd | ⟨e, d', hstep⟩⟩ := RuleSet.exists_lexes hset (Cursor.start text)
  · exact ⟨ts, d, hway, .inl ⟨hd, tokenize_of_lexes hset hproper hway hd⟩⟩
  · exact ⟨ts, d, hway, .inr ⟨e, d', hstep, tokenize_of_failure hset hproper hway hstep⟩⟩

end Tokenize

/-! ### Texts joined by a line break -/

/-- How far on a text is behind another one and a line break. -/
def Offset.behind (text : String) : Offset :=
  ⟨text.length + 1, text.toList.count '\n' + 1⟩

namespace Vocabulary

theorem commentsClosed_of_suffixes {c : Cursor} (h : ∀ chars, chars <:+ c.rest →
    "/*".toList <+: chars → "*/".toList <:+: chars.drop 2) : CommentsClosed c := by
  intro ts d hway hopens
  exact h d.rest (hway.rest_suffix forward_console) (List.isPrefixOf_iff_prefix.mp hopens)

/-- Behind a text and a line break, the start of another text is at the place where the lexer comes
from the end of the first. -/
theorem cursor_behind {u : String} {ts : List (Token Kind)} {d : Cursor}
    (h : console.Lexes (Cursor.start u) ts d) (hd : d.rest = []) (v : String) :
    (Offset.behind u).cursor (Cursor.start v) = ⟨d.position + 1, d.line + 1, v.toList⟩ := by
  have hin := (Cursor.isIn_start u).onward (h.onward forward_console)
  have hposition : d.position = u.toList.length :=
    Nat.le_antisymm hin.position_le (List.drop_eq_nil_iff.mp (hin.rest.symm.trans hd))
  have hline : d.line = 1 + u.toList.count '\n' := by
    rw [hin.line, hposition, List.take_length]
  rw [hline, hposition, String.length_toList]
  simp only [Offset.cursor, Offset.behind, Cursor.start, Cursor.mk.injEq, and_true]
  omega

/-- A text whose comments are closed and another one behind a line break: the tokens, or the first
failure, of the second come behind the tokens of the first, further on. -/
theorem tokenize_join {u : String} {ts : List (Token Kind)} (h : tokenize console u = .ok ts)
    (hclosed : CommentsClosed (Cursor.start u)) (v : String) :
    tokenize console (u ++ "\n" ++ v) =
      ((tokenize console v).map fun us => ts ++ us.map (Offset.behind u).token).mapError
        (Offset.behind u).error := by
  obtain ⟨ts', d, hway, ⟨hd, hok⟩ | ⟨e, d', _, herror⟩⟩ :=
    lexes_of_tokenize progresses_console proper_console u
  swap
  · rw [herror] at h
    cases h
  cases hok.symm.trans h
  have hstart : Cursor.start (u ++ "\n" ++ v) = (Cursor.start u).extend ('\n' :: v.toList) := by
    simp [Cursor.start, Cursor.extend]
  obtain ⟨us, e, hmore, hend⟩ := lexes_of_tokenize progresses_console proper_console v
  have hmoved := hmore.moved movable_console (Offset.behind u)
  rw [cursor_behind hway hd] at hmoved
  rcases hend with ⟨he, hv⟩ | ⟨err, e', hstep, hv⟩
  · have hblanks : ((Offset.behind u).cursor e).skipBlanks = (Offset.behind u).cursor e :=
      Cursor.skipBlanks_of_rest_nil he
    have hjoined := lexes_join hway hd hclosed hmoved hblanks
    rw [← hstart] at hjoined
    rw [hv, tokenize_of_lexes progresses_console proper_console hjoined he]
    rfl
  · have hblanks : ((Offset.behind u).cursor e).skipBlanks = (Offset.behind u).cursor e :=
      Cursor.skipBlanks_of_not_blank (RuleSet.not_blank_of_failure hstep).2
    have hjoined := lexes_join hway hd hclosed hmoved hblanks
    have hfails : console.step ((Offset.behind u).cursor e) =
        .failure ((Offset.behind u).error err) ((Offset.behind u).cursor e') := by
      rw [RuleSet.step_cursor movable_console, hstep]
      rfl
    rw [← hstart] at hjoined
    rw [hv, tokenize_of_failure progresses_console proper_console hjoined hfails]
    rfl

/-- The line comment goes on to the end of the first text, and the second text fails. -/
theorem tokenize_join_commented :
    tokenize console "x /* a\n*/ // b" = .ok [⟨.identifier, some (.text "x"), 1⟩] ∧
      CommentsClosed (Cursor.start "x /* a\n*/ // b") ∧
      tokenize console ("x /* a\n*/ // b" ++ "\n" ++ "1\n $") =
        .error (.unrecognized '$' 18 4) := by
  have h : tokenize console "x /* a\n*/ // b" = .ok [⟨.identifier, some (.text "x"), 1⟩] := by cbv
  have hclosed : CommentsClosed (Cursor.start "x /* a\n*/ // b") := by
    apply commentsClosed_of_suffixes
    intro chars hsuffix hopens
    have htails : ∀ w ∈ "x /* a\n*/ // b".toList.tails,
        "/*".toList <+: w → "*/".toList <:+: w.drop 2 := by
      decide +kernel
    exact htails chars ((List.mem_tails _ _).mpr hsuffix) hopens
  have hfails : tokenize console "1\n $" = .error (.unrecognized '$' 3 2) := by cbv
  refine ⟨h, hclosed, ?_⟩
  rw [tokenize_join h hclosed, hfails]
  rfl

end Vocabulary

end ConsoleScript
