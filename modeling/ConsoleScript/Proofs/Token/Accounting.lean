import ConsoleScript.Proofs.Token.Lexemes
import ConsoleScript.Proofs.Token.Tokenization

/-!
# Every character is accounted for

A text is made of the lexemes of its tokens and of gaps between them, which hold white space and
comments and nothing else. No character is lost or read twice, up to the end of the text or to the
first character that is not recognized.
-/

namespace ConsoleScript

open Text

/-- Characters that give no token, in front of those that follow. A comment that is not closed goes
on to the end of the text. -/
inductive Trivia : List Char → List Char → Prop where
  | blanks {chars rest : List Char} (h : ∀ x ∈ chars, isBlank x) : Trivia chars rest
  | line {body rest : List Char} (h : '\n' ∉ body) :
      Trivia ("//".toList ++ body ++ ['\n']) rest
  | lastLine {body : List Char} (h : '\n' ∉ body) : Trivia ("//".toList ++ body) []
  | block {body rest : List Char} (h : ¬ "*/".toList <:+: body) :
      Trivia ("/*".toList ++ body ++ "*/".toList) rest
  | lastBlock {body : List Char} (h : ¬ "*/".toList <:+: body) : Trivia ("/*".toList ++ body) []

/-- What may stand between two tokens. -/
inductive Gap : List Char → List Char → Prop where
  | nil {rest : List Char} : Gap [] rest
  | cons {piece gap rest : List Char} (first : Trivia piece (gap ++ rest)) (more : Gap gap rest) :
      Gap (piece ++ gap) rest

/-- The characters behind `before` and in front of `rest` are the lexemes of the tokens with gaps
around them. A lexeme is not taken from the beginning of a comment. -/
inductive Splits (rest : List Char) : List Char → List Char → List (Token Kind) → Prop where
  | last {before gap : List Char} (hgap : Gap gap rest) : Splits rest before gap []
  | token {before gap lexeme chars : List Char} {t : Token Kind} {ts : List (Token Kind)}
      (hgap : Gap gap (lexeme ++ chars ++ rest)) (hne : lexeme ≠ [])
      (hline : ¬ "//".toList <+: lexeme ++ chars ++ rest)
      (hblock : ¬ "/*".toList <+: lexeme ++ chars ++ rest)
      (hspelled : Spelled lexeme (chars ++ rest) t.kind t.value)
      (hplace : t.line = 1 + (before ++ gap).count '\n')
      (more : Splits rest (before ++ gap ++ lexeme) chars ts) :
      Splits rest before (gap ++ lexeme ++ chars) (t :: ts)

theorem Splits.cons_trivia {rest before piece chars : List Char} {ts : List (Token Kind)}
    (first : Trivia piece (chars ++ rest)) (h : Splits rest (before ++ piece) chars ts) :
    Splits rest before (piece ++ chars) ts := by
  cases h with
  | last hgap => exact .last (.cons first hgap)
  | @token _ gap lexeme chars t ts hgap hne hline hblock hspelled hplace more =>
    have hgap' : Gap (piece ++ gap) (lexeme ++ chars ++ rest) := by
      refine .cons ?_ hgap
      simpa using first
    have hsplits : Splits rest before (piece ++ gap ++ lexeme ++ chars) (t :: ts) :=
      .token hgap' hne hline hblock hspelled (by simpa using hplace) (by simpa using more)
    simpa using hsplits

/-! ### What is skipped -/

/-- The place of the first key, or the end where there is none. -/
theorem Cursor.distanceTo_cases {key : List Char} (hkey : key ≠ []) (passed : Nat)
    (chars : List Char) :
    (∃ body tail, chars = body ++ key ++ tail ∧ ¬ key <:+: body ∧
        distanceTo key passed chars = passed + body.length) ∨
      ¬ key <:+: chars ∧ distanceTo key passed chars = passed + chars.length := by
  induction chars generalizing passed with
  | nil =>
    refine .inr ⟨?_, rfl⟩
    rwa [List.infix_nil]
  | cons x chars ih =>
    by_cases hfirst : key <+: x :: chars
    · obtain ⟨tail, htail⟩ := hfirst
      refine .inl ⟨[], tail, by simpa using htail.symm, by rwa [List.infix_nil], ?_⟩
      rw [distanceTo, if_pos (List.isPrefixOf_iff_prefix.mpr ⟨tail, htail⟩)]
      rfl
    have hdistance : distanceTo key passed (x :: chars) = distanceTo key (passed + 1) chars := by
      rw [distanceTo, if_neg (mt List.isPrefixOf_iff_prefix.mp hfirst)]
    rcases ih (passed + 1) with ⟨body, tail, rfl, hbody, hplace⟩ | ⟨hnone, hplace⟩
    · refine .inl ⟨x :: body, tail, by simp, ?_, ?_⟩
      · rw [List.infix_cons_iff, not_or]
        refine ⟨fun hlong => hfirst (hlong.trans ?_), hbody⟩
        simp
      · rw [hdistance, hplace, List.length_cons]
        omega
    · refine .inr ⟨?_, ?_⟩
      · rw [List.infix_cons_iff, not_or]
        exact ⟨hfirst, hnone⟩
      · rw [hdistance, hplace, List.length_cons]
        omega

namespace Vocabulary

variable {c d after : Cursor} {before : List Char} {ts : List (Token Kind)}

theorem trivia_lineComment (h : c.startsWith "//") :
    ∃ piece, c.Passes piece c.skipLine ∧ Trivia piece c.skipLine.rest := by
  obtain ⟨rest, hrest⟩ := Cursor.rest_of_startsWith h
  have hrun : c.run (· ≠ '\n') = "//".toList ++ rest.takeWhile (· ≠ '\n') := by
    rw [Cursor.run, hrest]
    rfl
  have hbody : '\n' ∉ rest.takeWhile (· ≠ '\n') := fun hmem => by
    simpa using List.mem_takeWhile_imp hmem
  have hpasses := Printing.passes_of_run hrun
  cases hbreak : (c.skipWhile (· ≠ '\n')).rest with
  | nil =>
    have hskip : c.skipLine = c.skipWhile (· ≠ '\n') := by
      rw [Cursor.skipLine, Cursor.advance, hbreak]
    rw [hskip, hbreak]
    exact ⟨_, hpasses, .lastLine hbody⟩
  | cons x tail =>
    have hx : x = '\n' := by
      simpa using stops_skipWhile (· ≠ '\n') c x (by rw [hbreak]; rfl)
    have hadvance := (c.skipWhile (· ≠ '\n')).passes_advance
    rw [hbreak, hx] at hadvance
    exact ⟨_, hpasses.trans hadvance, .line hbody⟩

theorem trivia_blockComment (h : c.startsWith "/*") :
    ∃ piece, c.Passes piece ((c.advanceBy 2).skipPast "*/") ∧
      Trivia piece ((c.advanceBy 2).skipPast "*/").rest := by
  have hopening : c.Passes "/*".toList (c.advanceBy 2) := passes_key h
  have hclosing := (c.advanceBy 2).passes_advanceBy
    (Cursor.distanceTo "*/".toList 0 (c.advanceBy 2).rest + "*/".length)
  have hpasses := hopening.trans hclosing
  refine ⟨_, hpasses, ?_⟩
  have hkey : "*/".toList ≠ [] := by decide
  rcases Cursor.distanceTo_cases hkey 0 (c.advanceBy 2).rest with
    ⟨body, tail, hrest, hbody, hplace⟩ | ⟨hbody, hplace⟩
  · have htaken : (c.advanceBy 2).rest.take
        (Cursor.distanceTo "*/".toList 0 (c.advanceBy 2).rest + "*/".length) =
          body ++ "*/".toList := by
      rw [hplace, hrest, Nat.zero_add, ← String.length_toList, ← List.length_append, List.take_left]
    rw [htaken, ← List.append_assoc]
    exact .block hbody
  · have hend : ((c.advanceBy 2).skipPast "*/").rest = [] := by
      rw [Cursor.skipPast, Cursor.rest_advanceBy, hplace, List.drop_eq_nil_iff]
      omega
    rw [hend, List.take_of_length_le (by omega)]
    exact .lastBlock hbody

theorem trivia_of_step (h : console.step c = .skipped after) :
    ∃ piece, c.Passes piece after ∧ Trivia piece after.rest := by
  rcases skipped_of_step h with ⟨hblank, rfl⟩ | ⟨hline, rfl⟩ | ⟨hblock, rfl⟩
  · exact ⟨c.run isBlank, c.passes_skipWhile isBlank, .blanks fun x hx => mem_run hx⟩
  · exact trivia_lineComment hline
  · exact trivia_blockComment hblock

/-! ### Whole texts -/

theorem no_comment_of_token {t : Token Kind} {taken : List Char} (hpasses : c.Passes taken after)
    (h : console.step c = .token t after) :
    ¬ "//".toList <+: taken ++ after.rest ∧ ¬ "/*".toList <+: taken ++ after.rest := by
  rw [← hpasses.rest]
  constructor
  · intro hline
    rw [step_of_lineComment (List.isPrefixOf_iff_prefix.mpr hline)] at h
    cases h
  · intro hblock
    rw [step_of_blockComment (List.isPrefixOf_iff_prefix.mpr hblock)] at h
    cases h

theorem lexeme_ne_nil {t : Token Kind} {lexeme : List Char} (hne : c.rest ≠ [])
    (h : console.step c = .token t after) (hpasses : c.Passes lexeme after) : lexeme ≠ [] := by
  have hprogress := RuleSet.step_progresses progresses_console c
  rw [h] at hprogress
  rcases hprogress with ⟨hnil, _⟩ | ⟨taken, htaken, htaken_ne⟩
  · exact absurd hnil hne
  · rwa [List.append_cancel_right (hpasses.rest.symm.trans htaken.rest)]

/-- The line breaks that are passed are counted. -/
theorem line_of_passes {step : LexStep Kind} {taken : List Char} (hstep : console.step c = step)
    (hpasses : c.Passes taken step.cursor) (hline : c.line = 1 + before.count '\n') :
    step.cursor.line = 1 + (before ++ taken).count '\n' := by
  have honward := RuleSet.step_onward forward_console c
  rw [hstep] at honward
  rw [honward.line_eq hpasses, hline, List.count_append, Nat.add_assoc]

theorem splits_of_lexes (h : console.Lexes c ts d) (hline : c.line = 1 + before.count '\n') :
    ∃ chars, c.Passes chars d ∧ Splits d.rest before chars ts := by
  induction h generalizing before with
  | refl c => exact ⟨[], .refl c, .last .nil⟩
  | @token c after d t ts hne hstep _ ih =>
    obtain ⟨hplace, lexeme, hpasses, hspelled⟩ := spelled_of_step hne hstep
    obtain ⟨chars, hmore, hsplits⟩ := ih (line_of_passes hstep hpasses hline)
    obtain ⟨hnoLine, hnoBlock⟩ := no_comment_of_token hpasses hstep
    rw [hmore.rest] at hspelled
    rw [hmore.rest, ← List.append_assoc] at hnoLine hnoBlock
    have hall : Splits d.rest before ([] ++ lexeme ++ chars) (t :: ts) := by
      refine .token .nil (lexeme_ne_nil hne hstep hpasses) hnoLine hnoBlock hspelled ?_ ?_
      · rw [hplace, hline, List.append_nil]
      · rwa [List.append_nil]
    exact ⟨lexeme ++ chars, hpasses.trans hmore, hall⟩
  | @skipped c after d ts hstep _ ih =>
    obtain ⟨piece, hpasses, htrivia⟩ := trivia_of_step hstep
    obtain ⟨chars, hmore, hsplits⟩ := ih (line_of_passes hstep hpasses hline)
    rw [hmore.rest] at htrivia
    exact ⟨piece ++ chars, hpasses.trans hmore, hsplits.cons_trivia htrivia⟩

/-- The tokens account for the whole text. Where a character is not recognized it is the one at the
given place, and the text up to it is accounted for. -/
theorem tokenize_accounts (text : String) :
    (∀ ts, tokenize console text = .ok ts → Splits [] [] text.toList ts) ∧
      ∀ x position line, tokenize console text = .error (.unrecognized x position line) →
        ∃ before behind ts, text.toList = before ++ x :: behind ∧ position = before.length ∧
          line = 1 + before.count '\n' ∧ Splits (x :: behind) [] before ts := by
  obtain ⟨ts, d, hway, hend⟩ := lexes_of_tokenize progresses_console proper_console text
  have hstart : (Cursor.start text).line = 1 + ([] : List Char).count '\n' := rfl
  obtain ⟨chars, hpasses, hsplits⟩ := splits_of_lexes hway hstart
  have hchars : text.toList = chars ++ d.rest := hpasses.rest
  constructor
  · intro us hus
    rcases hend with ⟨hd, hts⟩ | ⟨e, d', _, herror⟩
    · cases hts.symm.trans hus
      rw [hd, List.append_nil] at hchars
      rw [hd] at hsplits
      rwa [hchars]
    · cases herror.symm.trans hus
  · intro x position line hfails
    rcases hend with ⟨hd, hts⟩ | ⟨e, d', hstep, herror⟩
    · cases hts.symm.trans hfails
    · cases herror.symm.trans hfails
      obtain ⟨rfl, rfl, rfl⟩ := unrecognized_of_step hstep
      have hrest : ∃ behind, d.rest = d.current :: behind := by
        obtain ⟨x, behind, hrest⟩ :=
          List.exists_cons_of_ne_nil (RuleSet.not_blank_of_failure hstep).1
        exact ⟨behind, by rw [Printing.current_eq hrest, hrest]⟩
      obtain ⟨behind, hrest⟩ := hrest
      have honward := hway.onward forward_console
      refine ⟨chars, behind, ts, by rw [hchars, ← hrest], ?_, ?_, hrest ▸ hsplits⟩
      · simpa [Cursor.start] using hpasses.position
      · exact honward.line_eq hpasses

theorem tokenize_accounts_comments :
    (tokenize console "x // 1" = .ok [⟨.identifier, some (.text "x"), 1⟩] ∧
      Splits [] [] "x // 1".toList [⟨.identifier, some (.text "x"), 1⟩]) ∧
    tokenize console "1 /* a\n*/ $" = .error (.unrecognized '$' 10 2) ∧
      ∃ before behind ts, "1 /* a\n*/ $".toList = before ++ '$' :: behind ∧ 10 = before.length ∧
        2 = 1 + before.count '\n' ∧ Splits ('$' :: behind) [] before ts := by
  have hok : tokenize console "x // 1" = .ok [⟨.identifier, some (.text "x"), 1⟩] := by cbv
  have hfails : tokenize console "1 /* a\n*/ $" = .error (.unrecognized '$' 10 2) := by cbv
  exact ⟨⟨hok, (tokenize_accounts _).1 _ hok⟩, hfails, (tokenize_accounts _).2 _ _ _ hfails⟩

end Vocabulary

end ConsoleScript
