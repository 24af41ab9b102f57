import ConsoleScript.Proofs.Token.Progress

/-!
# Readers only go on

Whatever is read, and also where reading fails, the cursor ends where some number of single steps
takes it. A cursor that is in a text thus stays in it, with the line that belongs to its position.
-/

namespace ConsoleScript

open Text

variable {κ α β : Type}

namespace Cursor

theorem advance_eq_advanceBy (c : Cursor) : c.advance = c.advanceBy 1 := by
  cases h : c.rest with
  | nil => rw [advanceBy_of_rest_nil 1 h, advance, h]
  | cons x rest => rw [advanceBy_succ_of_rest 0 h]; rfl

theorem advanceBy_advanceBy (m n : Nat) (c : Cursor) :
    (c.advanceBy m).advanceBy n = c.advanceBy (m + n) := by
  induction m generalizing c with
  | zero => rw [Nat.zero_add]; rfl
  | succ m ih =>
    cases h : c.rest with
    | nil => simp only [advanceBy_of_rest_nil _ h]
    | cons x rest =>
      rw [Nat.succ_add, advanceBy_succ_of_rest m h, advanceBy_succ_of_rest (m + n) h, ih]

/-- The second place is reached from the first by single steps. -/
def Onward (c d : Cursor) : Prop :=
  ∃ n, d = c.advanceBy n

theorem Onward.refl (c : Cursor) : c.Onward c :=
  ⟨0, rfl⟩

theorem Onward.trans {a b c : Cursor} : a.Onward b → b.Onward c → a.Onward c := by
  rintro ⟨m, rfl⟩ ⟨n, rfl⟩
  exact ⟨m + n, advanceBy_advanceBy m n a⟩

theorem onward_advanceBy (c : Cursor) (n : Nat) : c.Onward (c.advanceBy n) :=
  ⟨n, rfl⟩

theorem onward_advance (c : Cursor) : c.Onward c.advance :=
  ⟨1, c.advance_eq_advanceBy⟩

theorem onward_skipWhile (p : Char → Bool) (c : Cursor) : c.Onward (c.skipWhile p) :=
  c.onward_advanceBy _

theorem onward_skipLine (c : Cursor) : c.Onward c.skipLine :=
  (c.onward_skipWhile _).trans (onward_advance _)

theorem onward_skipPast (key : String) (c : Cursor) : c.Onward (c.skipPast key) :=
  c.onward_advanceBy _

theorem Onward.line_eq {c d : Cursor} {taken : List Char} (h : c.Onward d)
    (hpasses : c.Passes taken d) : d.line = c.line + taken.count '\n' := by
  obtain ⟨n, rfl⟩ := h
  have htaken : taken = c.rest.take n := by
    have hrest : taken ++ c.rest.drop n = c.rest.take n ++ c.rest.drop n := by
      rw [List.take_append_drop, ← rest_advanceBy, ← hpasses.rest]
    exact List.append_cancel_right hrest
  rw [line_advanceBy, htaken]

/-- The cursor stands in the text, on the line on which its position is. -/
structure IsIn (text : List Char) (c : Cursor) : Prop where
  rest : c.rest = text.drop c.position
  position_le : c.position ≤ text.length
  line : c.line = 1 + (text.take c.position).count '\n'

theorem isIn_start (text : String) : (start text).IsIn text.toList :=
  ⟨rfl, Nat.zero_le _, rfl⟩

theorem IsIn.onward {text : List Char} {c d : Cursor} (h : c.IsIn text) (hd : c.Onward d) :
    d.IsIn text := by
  obtain ⟨n, rfl⟩ := hd
  have hlength : c.rest.length = text.length - c.position := by rw [h.rest, List.length_drop]
  have hle := h.position_le
  constructor
  · rw [rest_advanceBy, position_advanceBy, hlength, h.rest, List.drop_drop]
    rcases Nat.le_total n (text.length - c.position) with hn | hn
    · rw [Nat.min_eq_left hn]
    · rw [Nat.min_eq_right hn, List.drop_of_length_le (by omega), List.drop_of_length_le (by omega)]
  · rw [position_advanceBy, hlength]
    omega
  · rw [line_advanceBy, position_advanceBy, h.line, h.rest, List.take_add, List.count_append,
      ← List.take_eq_take_min, Nat.add_assoc]

/-- To restore a cursor that is in the text is to have it back. -/
theorem IsIn.restore_checkpoint {text : Array Char} {c : Cursor} (h : c.IsIn text.toList) :
    restore text c.checkpoint = c := by
  rw [restore, checkpoint, ← h.rest]

end Cursor

/-! ### Readers -/

namespace Scan

/-- Where reading leaves the cursor, whether it succeeds or fails. -/
def cursorAfter : EStateM.Result LexError Cursor α → Cursor
  | .ok _ d => d
  | .error _ d => d

/-- The reader moves the cursor by single steps only. -/
def Forward (read : Scan α) : Prop :=
  ∀ c : Cursor, c.Onward (cursorAfter (read c))

theorem forward_pure (a : α) : Forward (pure a) :=
  Cursor.Onward.refl

theorem forward_throw (e : LexError) : Forward (throw e : Scan α) :=
  Cursor.Onward.refl

theorem forward_get : Forward get :=
  Cursor.Onward.refl

theorem forward_modify {f : Cursor → Cursor} (h : ∀ c : Cursor, c.Onward (f c)) :
    Forward (modify f) :=
  h

theorem Forward.bind {x : Scan α} {f : α → Scan β} (hx : Forward x) (hf : ∀ a, Forward (f a)) :
    Forward (x >>= f) := by
  intro c
  have hfirst := hx c
  cases hread : x c with
  | ok a mid =>
    rw [hread] at hfirst
    rw [bind_of_ok hread]
    exact hfirst.trans (hf a mid)
  | error e mid =>
    rw [hread] at hfirst
    rw [bind_of_error hread]
    exact hfirst

theorem Forward.map {x : Scan α} (hx : Forward x) (f : α → β) : Forward (f <$> x) := by
  rw [map_eq_pure_bind]
  exact hx.bind fun a => forward_pure (f a)

theorem forward_readWhile (p : Char → Bool) : Forward (readWhile p) :=
  fun c => c.onward_skipWhile p

theorem forward_readIdentifier : Forward readIdentifier :=
  (forward_readWhile _).bind fun _ => forward_pure _

theorem forward_readDigits : Forward readDigits :=
  (forward_readWhile _).bind fun _ => forward_pure _

theorem forward_readFraction : Forward readFraction := by
  apply forward_get.bind
  intro c
  split
  · exact (forward_modify Cursor.onward_advance).bind fun _ =>
      forward_readDigits.bind fun _ => forward_pure _
  · exact forward_pure none

theorem forward_readFloatSuffix : Forward readFloatSuffix := by
  apply forward_get.bind
  intro c
  split
  · exact (forward_modify Cursor.onward_advance).bind fun _ => forward_pure true
  · exact forward_pure false

theorem forward_readNumber : Forward readNumber := by
  apply forward_get.bind
  intro c
  apply forward_readDigits.bind
  intro whole
  apply forward_readFraction.bind
  intro fraction
  apply forward_readFloatSuffix.bind
  intro suffixed
  dsimp only
  split
  · exact forward_pure _
  · exact forward_throw _

theorem forward_readString : Forward readString := by
  intro c
  unfold readString
  dsimp only
  split
  · exact c.onward_advance.trans (Cursor.onward_advanceBy _ _)
  · exact c.onward_advanceBy _

end Scan

/-! ### Rules -/

namespace Rule

/-- The rule moves the cursor by single steps only. -/
def Forward (r : Rule κ) : Prop :=
  Scan.Forward r.read

theorem Forward.run {r : Rule κ} (h : r.Forward) : Scan.Forward r.run :=
  Scan.Forward.bind h fun _ =>
    (Scan.forward_modify fun c => c.onward_advanceBy _).bind fun _ => Scan.forward_pure _

theorem forward_plainToken (kind : κ) : Scan.Forward (plainToken kind) :=
  Scan.forward_get.bind fun _ => Scan.forward_pure _

theorem forward_valued {applies : Cursor → Bool} {read : Scan Literal} (kind : Literal → κ)
    (h : Scan.Forward read) : (valued applies read kind).Forward :=
  Scan.forward_get.bind fun _ => h.bind fun _ => Scan.forward_pure _

theorem forward_lineComment (opening : String) : (lineComment opening : Rule κ).Forward :=
  (Scan.forward_modify Cursor.onward_skipLine).bind fun _ => Scan.forward_pure _

theorem forward_blockComment (opening closing : String) :
    (blockComment opening closing : Rule κ).Forward := by
  refine (Scan.forward_modify fun c => ?_).bind fun _ => Scan.forward_pure _
  exact (c.onward_advanceBy _).trans (Cursor.onward_skipPast _ _)

end Rule

/-- Where the lexer is after a step. -/
def LexStep.cursor : LexStep κ → Cursor
  | token _ d => d
  | failure _ d => d
  | skipped d => d

namespace RuleSet

def Forward (set : RuleSet κ) : Prop :=
  ∀ r ∈ set.rules, r.Forward

variable [TokenKind κ] {set : RuleSet κ}

theorem step_onward (hset : set.Forward) (c : Cursor) : c.Onward (set.step c).cursor := by
  by_cases hend : c.atEnd
  · rw [step, if_pos hend]
    exact .refl c
  by_cases hblank : isBlank c.current
  · rw [step, if_neg hend, if_pos hblank]
    exact c.onward_skipWhile isBlank
  rw [step, if_neg hend, if_neg hblank]
  cases hselect : set.select c with
  | none => exact .refl c
  | some rule =>
    have hrule := (hset rule (select_some hselect).1).run c
    dsimp only
    cases hrun : rule.run c with
    | ok lexeme d =>
      rw [hrun] at hrule
      cases lexeme <;> exact hrule
    | error e d =>
      rw [hrun] at hrule
      exact hrule

theorem scan_onward (hset : set.Forward) (size : Nat) (c : Cursor) :
    c.Onward (Scan.cursorAfter (set.scan size c)) := by
  have hstep := step_onward hset
  induction c using RuleSet.scan.induct set size with
  | case1 c t after hc =>
    have honward := hstep c
    rw [hc] at honward
    rw [scan, hc]
    exact honward
  | case2 c e after hc =>
    have honward := hstep c
    rw [hc] at honward
    rw [scan, hc]
    exact honward
  | case3 c after hc hmoved ih =>
    have honward := hstep c
    rw [hc] at honward
    rw [scan, hc]
    simp only [hmoved, ↓reduceDIte]
    exact honward.trans ih
  | case4 c after hc hmoved =>
    rw [scan, hc]
    simp only [hmoved, ↓reduceDIte]
    exact .refl c

end RuleSet

theorem Vocabulary.forward_console : console.Forward := by
  apply forall_rule
  · exact Rule.forward_lineComment _
  · exact Rule.forward_blockComment _ _
  · exact fun key kind _ _ _ => Rule.forward_plainToken kind
  · exact fun key kind _ _ _ => Rule.forward_plainToken kind
  · exact Rule.forward_valued _ Scan.forward_readNumber
  · exact Rule.forward_valued _ (Scan.forward_readIdentifier.map _)
  · exact Rule.forward_valued _ (Scan.forward_readString.map _)

end ConsoleScript
