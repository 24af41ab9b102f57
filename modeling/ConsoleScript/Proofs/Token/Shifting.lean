import ConsoleScript.Proofs.Mirroring
import ConsoleScript.Proofs.Token.Progress
import Mathlib.Data.List.Find

/-!
# Lexing behind other text

A lexer looks at the characters that follow, never at those before. Where the same characters follow
further on in a text it does the same, and only the places and lines that it reports are others.
-/

namespace ConsoleScript

open Text

variable {κ : Type}

/-- How far on a place is when there is other text before it. -/
structure Offset where
  position : Nat
  line : Nat

namespace Offset

variable (o : Offset)

def cursor (c : Cursor) : Cursor :=
  ⟨c.position + o.position, c.line + o.line, c.rest⟩

def token (t : Token κ) : Token κ :=
  { t with line := t.line + o.line }

def error : LexError → LexError
  | .unrecognized x position line => .unrecognized x (position + o.position) (line + o.line)
  | .malformedNumber text line => .malformedNumber text (line + o.line)
  | .unterminatedString line => .unterminatedString (line + o.line)

def lexeme : Lexeme κ → Lexeme κ
  | .token t => .token (o.token t)
  | .skip => .skip

def step : LexStep κ → LexStep κ
  | .token t c => .token (o.token t) (o.cursor c)
  | .failure e c => .failure (o.error e) (o.cursor c)
  | .skipped c => .skipped (o.cursor c)

/-- Further on the reader `x` does what `x'` says, where values are taken over by `g`. -/
abbrev Moves {α β : Type} (g : α → β) (x : Scan α) (x' : Scan β) : Prop :=
  Mirrors o.error o.cursor g x x'

variable {o}

theorem advance_cursor (c : Cursor) : (o.cursor c).advance = o.cursor c.advance := by
  obtain ⟨position, line, rest⟩ := c
  cases rest with
  | nil => rfl
  | cons x rest =>
    simp only [Cursor.advance, cursor, Cursor.mk.injEq, and_true]
    constructor
    · omega
    · split <;> omega

theorem advanceBy_cursor (n : Nat) (c : Cursor) :
    (o.cursor c).advanceBy n = o.cursor (c.advanceBy n) := by
  induction n generalizing c with
  | zero => rfl
  | succ n ih =>
    have hend : (o.cursor c).atEnd = c.atEnd := rfl
    simp only [Cursor.advanceBy, hend]
    split
    · rfl
    · rw [advance_cursor, ih]

theorem skipWhile_cursor (p : Char → Bool) (c : Cursor) :
    (o.cursor c).skipWhile p = o.cursor (c.skipWhile p) :=
  advanceBy_cursor _ c

theorem skipLine_cursor (c : Cursor) : (o.cursor c).skipLine = o.cursor c.skipLine := by
  rw [Cursor.skipLine, skipWhile_cursor, advance_cursor]
  rfl

theorem skipPast_cursor (key : String) (c : Cursor) :
    (o.cursor c).skipPast key = o.cursor (c.skipPast key) :=
  advanceBy_cursor _ c

/-! ### Readers -/

theorem moves_readWhile (p : Char → Bool) :
    o.Moves id (Scan.readWhile p) (Scan.readWhile p) := by
  intro c
  change EStateM.Result.ok (c.run p) ((o.cursor c).skipWhile p) = _
  rw [skipWhile_cursor]
  rfl

theorem moves_readIdentifier : o.Moves id Scan.readIdentifier Scan.readIdentifier :=
  (moves_readWhile isWordChar).bind fun _ => mirrors_pure _

theorem moves_readDigits : o.Moves id Scan.readDigits Scan.readDigits :=
  (moves_readWhile _).bind fun _ => mirrors_pure _

theorem moves_readFraction : o.Moves id Scan.readFraction Scan.readFraction := by
  apply mirrors_get.bind
  intro c
  change o.Moves id _ (if c.current = '.' then _ else _)
  split
  · exact Mirrors.bind (mirrors_modify advance_cursor) fun _ =>
      moves_readDigits.bind fun _ => mirrors_pure _
  · exact mirrors_pure _

theorem moves_readFloatSuffix : o.Moves id Scan.readFloatSuffix Scan.readFloatSuffix := by
  apply mirrors_get.bind
  intro c
  change o.Moves id _ (if (c.current = 'f' || c.current = 'F') = true then _ else _)
  split
  · exact Mirrors.bind (mirrors_modify advance_cursor) fun _ => mirrors_pure _
  · exact mirrors_pure _

theorem moves_readNumber : o.Moves id Scan.readNumber Scan.readNumber := by
  apply mirrors_get.bind
  intro c
  apply moves_readDigits.bind
  intro whole
  apply moves_readFraction.bind
  intro fraction
  apply moves_readFloatSuffix.bind
  intro suffixed
  dsimp only [id_eq]
  split
  · exact mirrors_pure _
  · exact mirrors_throw _

theorem moves_readString : o.Moves id Scan.readString Scan.readString := by
  intro c
  unfold Scan.readString
  rw [advance_cursor]
  have hrest : (o.cursor c.advance).rest = c.advance.rest := rfl
  simp only [hrest]
  split
  · rw [advanceBy_cursor]
    rfl
  · have hend := advanceBy_cursor (o := o) c.rest.length c
    exact congrArg (EStateM.Result.error _) hend

end Offset

/-! ### Rules -/

namespace Rule

/-- Other text before the place makes no difference to the rule. -/
structure Movable (r : Rule κ) : Prop where
  applies (o : Offset) (c : Cursor) : r.applies (o.cursor c) = r.applies c
  run (o : Offset) : o.Moves o.lexeme r.run r.run

theorem moves_run {o : Offset} {r : Rule κ} (h : o.Moves o.lexeme r.read r.read) :
    o.Moves o.lexeme r.run r.run :=
  h.bind fun _ => Mirrors.bind (mirrors_modify (Offset.advanceBy_cursor _)) fun _ => mirrors_pure _

theorem moves_plainToken {o : Offset} (kind : κ) :
    o.Moves o.lexeme (plainToken kind) (plainToken kind) :=
  mirrors_get.bind fun _ => mirrors_pure _

theorem movable_literal (key : String) (kind : κ) : (literal key kind).Movable :=
  ⟨fun _ _ => rfl, fun _ => moves_run (moves_plainToken kind)⟩

theorem movable_keyword (key : String) (kind : κ) : (keyword key kind).Movable :=
  ⟨fun _ _ => rfl, fun _ => moves_run (moves_plainToken kind)⟩

theorem movable_valued {applies : Cursor → Bool} {read : Scan Literal} (kind : Literal → κ)
    (happlies : ∀ (o : Offset) c, applies (o.cursor c) = applies c)
    (hread : ∀ o : Offset, o.Moves id read read) : (valued applies read kind).Movable := by
  refine ⟨happlies, fun o => moves_run ?_⟩
  apply mirrors_get.bind
  intro c
  exact (hread o).bind fun _ => mirrors_pure _

theorem movable_lineComment (opening : String) : (lineComment opening : Rule κ).Movable :=
  ⟨fun _ _ => rfl, fun _ => moves_run
    (Mirrors.bind (mirrors_modify Offset.skipLine_cursor) fun _ => mirrors_pure _)⟩

theorem movable_blockComment (opening closing : String) :
    (blockComment opening closing : Rule κ).Movable := by
  refine ⟨fun _ _ => rfl, fun o => moves_run (Mirrors.bind (mirrors_modify ?_) fun _ =>
    mirrors_pure _)⟩
  intro c
  rw [Offset.advanceBy_cursor, Offset.skipPast_cursor]

end Rule

def RuleSet.Movable (set : RuleSet κ) : Prop :=
  ∀ r ∈ set.rules, r.Movable

namespace Vocabulary

theorem movable_console : console.Movable := by
  apply forall_rule
  · exact Rule.movable_lineComment _
  · exact Rule.movable_blockComment _ _
  · exact fun key kind _ _ _ => Rule.movable_literal key kind
  · exact fun key kind _ _ _ => Rule.movable_keyword key kind
  · exact Rule.movable_valued _ (fun _ _ => rfl) fun _ => Offset.moves_readNumber
  · exact Rule.movable_valued _ (fun _ _ => rfl) fun _ => Offset.moves_readIdentifier.map _
  · exact Rule.movable_valued _ (fun _ _ => rfl) fun _ => Offset.moves_readString.map _

end Vocabulary

theorem RuleSet.step_cursor [TokenKind κ] {set : RuleSet κ} (hset : set.Movable) (o : Offset)
    (c : Cursor) : set.step (o.cursor c) = o.step (set.step c) := by
  have hselect : set.select (o.cursor c) = set.select c := by
    unfold select
    apply List.find?_congr
    intro r hr
    rw [(hset r hr).applies]
  unfold step
  rw [hselect]
  change (if c.atEnd = true then _ else if isBlank c.current = true then _ else _) = _
  split
  · rfl
  · split
    · exact congrArg LexStep.skipped (Offset.skipWhile_cursor isBlank c)
    · cases hrule : set.select c with
      | none => rfl
      | some rule =>
        have hmem : rule ∈ set.rules := List.mem_of_find?_eq_some hrule
        have hrun := (hset rule hmem).run o c
        dsimp only
        rw [hrun]
        cases rule.run c with
        | ok lexeme after => cases lexeme <;> rfl
        | error e after => rfl

end ConsoleScript
