import ConsoleScript.Proofs.Token.Shifting

/-!
# Tokens before a line break

Only strings and block comments go over a line break, and they say where they end. To every other
rule a line break is like the end of the text, so what stands behind it makes no difference to the
tokens before it.
-/

namespace ConsoleScript

open Text

variable {κ α β : Type}

namespace Cursor

/-- The same place, with more text at the end. -/
def extend (c : Cursor) (tail : List Char) : Cursor :=
  ⟨c.position, c.line, c.rest ++ tail⟩

theorem advance_extend {c : Cursor} (h : c.rest ≠ []) (tail : List Char) :
    (c.extend tail).advance = c.advance.extend tail := by
  obtain ⟨x, rest, hrest⟩ := List.exists_cons_of_ne_nil h
  have hextended : (c.extend tail).rest = x :: (rest ++ tail) := by
    rw [extend, hrest]
    rfl
  rw [advance_of_rest hrest, advance_of_rest hextended]
  rfl

theorem advanceBy_extend {n : Nat} {c : Cursor} (h : n ≤ c.rest.length) (tail : List Char) :
    (c.extend tail).advanceBy n = (c.advanceBy n).extend tail := by
  induction n generalizing c with
  | zero => rfl
  | succ n ih =>
    cases hrest : c.rest with
    | nil =>
      rw [hrest] at h
      cases h
    | cons x rest =>
      have hextended : (c.extend tail).rest = x :: (rest ++ tail) := by
        rw [extend, hrest]
        rfl
      have hlength : n ≤ c.advance.rest.length := by
        rw [advance_of_rest hrest]
        rw [hrest] at h
        exact Nat.le_of_succ_le_succ h
      rw [advanceBy_succ_of_rest n hrest, advanceBy_succ_of_rest n hextended,
        advance_extend (by simp [hrest]), ih hlength]

theorem current_extend {c : Cursor} (h : c.rest ≠ []) (tail : List Char) :
    (c.extend tail).current = c.current := by
  obtain ⟨x, rest, hrest⟩ := List.exists_cons_of_ne_nil h
  simp [current, lookahead, extend, hrest]

section

variable (w : List Char)

theorem run_extend {p : Char → Bool} (hp : p '\n' = false) (c : Cursor) :
    (c.extend ('\n' :: w)).run p = c.run p := by
  simp only [run, extend]
  induction c.rest with
  | nil => simp [hp]
  | cons x rest ih => by_cases hx : p x <;> simp [hx, ih]

theorem length_run_le (c : Cursor) (p : Char → Bool) : (c.run p).length ≤ c.rest.length :=
  (List.takeWhile_prefix p).length_le

theorem skipWhile_extend {p : Char → Bool} (hp : p '\n' = false) (c : Cursor) :
    (c.extend ('\n' :: w)).skipWhile p = (c.skipWhile p).extend ('\n' :: w) := by
  rw [skipWhile, run_extend w hp, advanceBy_extend (c.length_run_le p)]
  rfl

theorem startsWith_extend {key : String} (hkey : '\n' ∉ key.toList) (c : Cursor) :
    (c.extend ('\n' :: w)).startsWith key = c.startsWith key := by
  simp only [startsWith, extend]
  generalize key.toList = chars at hkey
  generalize c.rest = rest
  induction chars generalizing rest with
  | nil => simp
  | cons x chars ih =>
    rw [List.mem_cons, not_or] at hkey
    cases rest with
    | nil => simp [List.isPrefixOf, Ne.symm hkey.1]
    | cons y rest => simp [List.isPrefixOf, ih hkey.2]

/-- The line break is told from the end only by what asks for it. -/
theorem lookahead_extend {p : Char → Bool} (hp : p '\n' = p endMark) {c : Cursor} {n : Nat}
    (h : n ≤ c.rest.length) : p ((c.extend ('\n' :: w)).lookahead n) = p (c.lookahead n) := by
  simp only [lookahead, extend, List.getD]
  rcases Nat.lt_or_eq_of_le h with hlt | rfl
  · rw [List.getElem?_append_left hlt]
  · simp [hp]

end

end Cursor

namespace Scan

/-- Where the reader succeeds, a line break at the end and whatever is behind it make no
difference. -/
def Local (read : Scan α) : Prop :=
  ∀ ⦃c : Cursor⦄ ⦃a : α⦄ ⦃after : Cursor⦄, read c = .ok a after →
    ∀ w, read (c.extend ('\n' :: w)) = .ok a (after.extend ('\n' :: w))

theorem local_pure (a : α) : Local (pure a) := by
  intro c _ _ h w
  cases h
  rfl

theorem Local.bind {x : Scan α} {f : α → Scan β} (hx : Local x) (hf : ∀ a, Local (f a)) :
    Local (x >>= f) := by
  intro c b after h w
  obtain ⟨a, mid, hread, hmore⟩ := bind_ok h
  rw [bind_of_ok (hx hread w)]
  exact hf a hmore w

theorem Local.map {x : Scan α} (hx : Local x) (f : α → β) : Local (f <$> x) := by
  rw [map_eq_pure_bind]
  exact hx.bind fun a => local_pure (f a)

theorem local_readWhile {p : Char → Bool} (hp : p '\n' = false) : Local (readWhile p) := by
  intro c _ _ h w
  cases h
  rw [readWhile, Cursor.run_extend w hp, Cursor.skipWhile_extend w hp]

theorem local_readIdentifier : Local readIdentifier :=
  (local_readWhile (by decide)).bind fun _ => local_pure _

theorem local_readDigits : Local readDigits :=
  (local_readWhile (by decide)).bind fun _ => local_pure _

/-- A reader that first looks whether to take one character. -/
theorem local_optional {q : Char → Prop} [DecidablePred q] (hbreak : ¬ q '\n')
    (hend : ¬ q Cursor.endMark) {x y : Scan α} (hx : Local x) (hy : Local y) :
    Local (do if q (← get).current then do modify Cursor.advance; x else y) := by
  intro c a after h w
  have hcurrent : q (c.extend ('\n' :: w)).current ↔ q c.current := by
    have hsame := Cursor.lookahead_extend w (p := fun z => decide (q z)) (c := c)
      (by simp [hbreak, hend]) (Nat.zero_le _)
    simpa [Cursor.current] using hsame
  rw [get_bind] at h ⊢
  by_cases hq : q c.current
  · have hne : c.rest ≠ [] := by
      intro hnil
      apply hend
      rwa [Cursor.current, Cursor.lookahead, hnil] at hq
    have hadvance : (modify Cursor.advance : Scan PUnit) (c.extend ('\n' :: w)) =
        .ok () (c.advance.extend ('\n' :: w)) :=
      congrArg (EStateM.Result.ok ()) (Cursor.advance_extend hne _)
    rw [if_pos hq] at h
    rw [if_pos (hcurrent.mpr hq), bind_of_ok hadvance]
    exact hx h w
  · rw [if_neg hq] at h
    rw [if_neg (mt hcurrent.mp hq)]
    exact hy h w

theorem local_readFraction : Local readFraction :=
  local_optional (q := (· = '.')) (by decide) (by decide)
    (local_readDigits.bind fun digits => local_pure (some digits)) (local_pure none)

theorem local_readFloatSuffix : Local readFloatSuffix :=
  local_optional (q := fun x => (decide (x = 'f') || decide (x = 'F')) = true) (by decide)
    (by decide) (local_pure true) (local_pure false)

theorem local_readNumber : Local readNumber := by
  intro c literal after h w
  unfold readNumber at h ⊢
  rw [get_bind] at h ⊢
  refine Local.bind local_readDigits (fun whole => local_readFraction.bind fun fraction =>
    local_readFloatSuffix.bind fun suffixed => ?_) h w
  dsimp only
  split
  · exact local_pure _
  · intro _ _ _ h
    cases h

theorem unquote_append {taken chars text : List Char} {width n : Nat}
    (h : unquote taken width chars = some (text, n)) :
    n ≤ width + chars.length ∧ ∀ tail, unquote taken width (chars ++ tail) = some (text, n) := by
  fun_induction unquote taken width chars with
  | case1 => cases h
  | case2 taken width rest =>
    cases h
    constructor
    · simp
    · exact fun tail => rfl
  | case3 taken width rest ih =>
    obtain ⟨hle, happend⟩ := ih h
    constructor
    · simp only [List.length_cons]
      omega
    · exact happend
  | case4 taken width x rest hquote hescape ih =>
    obtain ⟨hle, happend⟩ := ih h
    constructor
    · simp only [List.length_cons]
      omega
    · intro tail
      rw [List.cons_append, unquote]
      · exact happend tail
      · exact hquote
      -- Where nothing follows a backslash the text would not be closed at all.
      · rintro more hx hmore
        cases rest with
        | nil => cases h
        | cons y rest =>
          cases hmore
          exact hescape rest hx rfl

theorem local_readString : Local readString := by
  intro c text after h w
  have hne : c.rest ≠ [] := by
    intro hnil
    simp [readString, Cursor.advance, hnil, unquote] at h
  unfold readString at h ⊢
  rw [Cursor.advance_extend hne]
  cases hquoted : unquote [] 0 c.advance.rest with
  | none =>
    simp only [hquoted] at h
    cases h
  | some found =>
    obtain ⟨chars, n⟩ := found
    obtain ⟨hle, happend⟩ := unquote_append hquoted
    rw [Nat.zero_add] at hle
    simp only [hquoted] at h
    cases h
    have hextended : (c.advance.extend ('\n' :: w)).rest = c.advance.rest ++ '\n' :: w := rfl
    simp only [hextended, happend, Cursor.advanceBy_extend hle]

end Scan

namespace Rule

/-- A line break at the end of the text and whatever is behind it make no difference to where the
rule applies or to the tokens it reads. -/
structure Local (r : Rule κ) : Prop where
  applies {c : Cursor} (hne : c.rest ≠ []) (w : List Char) :
    r.applies (c.extend ('\n' :: w)) = r.applies c
  token {c after : Cursor} {t : Token κ} (happlies : r.applies c)
    (h : r.run c = .ok (.token t) after) (w : List Char) :
    r.run (c.extend ('\n' :: w)) = .ok (.token t) (after.extend ('\n' :: w))

theorem length_le_of_startsWith {c : Cursor} {key : String} (h : c.startsWith key) :
    key.length ≤ c.rest.length := by
  rw [← String.length_toList]
  exact (List.isPrefixOf_iff_prefix.mp h).length_le

theorem token_of_key {r : Rule κ} {key : String} {kind : κ} (hkey : r.key = some key)
    (hread : r.read = plainToken kind) {c after : Cursor} {t : Token κ} (hc : c.startsWith key)
    (h : r.run c = .ok (.token t) after) (w : List Char) :
    r.run (c.extend ('\n' :: w)) = .ok (.token t) (after.extend ('\n' :: w)) := by
  have hlength : r.keyLength = key.length := by simp [keyLength, hkey]
  unfold run at h ⊢
  rw [hread, hlength] at h ⊢
  cases h
  exact congrArg (EStateM.Result.ok _) (Cursor.advanceBy_extend (length_le_of_startsWith hc) _)

theorem local_literal {key : String} (hkey : '\n' ∉ key.toList) (kind : κ) :
    (literal key kind).Local where
  applies _ w := Cursor.startsWith_extend w hkey _
  token happlies h w := token_of_key rfl rfl happlies h w

theorem local_keyword {key : String} (hkey : '\n' ∉ key.toList) (kind : κ) :
    (keyword key kind).Local where
  applies {c} _ w := by
    simp only [keyword, Cursor.startsWith_extend w hkey]
    by_cases hc : c.startsWith key
    · have hword : isWordChar '\n' = isWordChar Cursor.endMark := by decide
      rw [Cursor.lookahead_extend w hword (length_le_of_startsWith hc)]
    · simp [hc]
  token happlies h w := token_of_key rfl rfl (Bool.and_eq_true _ _ ▸ happlies).1 h w

theorem local_valued {applies : Cursor → Bool} {read : Scan Literal} (kind : Literal → κ)
    (happlies : ∀ {c : Cursor}, c.rest ≠ [] → ∀ w, applies (c.extend ('\n' :: w)) = applies c)
    (hread : Scan.Local read) : (valued applies read kind).Local where
  applies := happlies
  token {c after t} _ h w := by
    obtain ⟨lexeme, mid, hlexeme, hmoved⟩ := bind_ok h
    cases hmoved
    rw [run, bind_of_ok]
    · rfl
    · exact (hread.bind fun value => Scan.local_pure _) hlexeme w

theorem local_lineComment {opening : String} (hopening : '\n' ∉ opening.toList) :
    (lineComment opening : Rule κ).Local where
  applies _ w := Cursor.startsWith_extend w hopening _
  token _ h := nomatch h

theorem local_blockComment {opening : String} (closing : String)
    (hopening : '\n' ∉ opening.toList) : (blockComment opening closing : Rule κ).Local where
  applies _ w := Cursor.startsWith_extend w hopening _
  token _ h := nomatch h

end Rule

def RuleSet.Local (set : RuleSet κ) : Prop :=
  ∀ r ∈ set.rules, r.Local

namespace Vocabulary

theorem startsNumber_extend {c : Cursor} (hne : c.rest ≠ []) (w : List Char) :
    startsNumber (c.extend ('\n' :: w)) = startsNumber c := by
  have hlength : 1 ≤ c.rest.length := List.length_pos_iff.mpr hne
  have hdigit : Char.isDigit '\n' = Char.isDigit Cursor.endMark := by decide
  have hpoint : ('\n' == '.') = (Cursor.endMark == '.') := by decide
  rw [startsNumber, startsNumber, Cursor.current, Cursor.current,
    Cursor.lookahead_extend w hdigit (Nat.zero_le _), Cursor.lookahead_extend w hdigit hlength,
    Cursor.lookahead_extend w (p := (· == '.')) hpoint (Nat.zero_le _)]

theorem startsIdentifier_extend {c : Cursor} (hne : c.rest ≠ []) (w : List Char) :
    startsIdentifier (c.extend ('\n' :: w)) = startsIdentifier c := by
  have hlength : 1 ≤ c.rest.length := List.length_pos_iff.mpr hne
  have hletter : isAlphabetic '\n' = isAlphabetic Cursor.endMark := by decide
  have hunderscore : ('\n' == '_') = (Cursor.endMark == '_') := by decide
  rw [startsIdentifier, startsIdentifier, Cursor.current, Cursor.current,
    Cursor.lookahead_extend w hletter (Nat.zero_le _), Cursor.lookahead_extend w hletter hlength,
    Cursor.lookahead_extend w (p := (· == '_')) hunderscore (Nat.zero_le _)]

theorem startsString_extend (c : Cursor) (w : List Char) :
    startsString (c.extend ('\n' :: w)) = startsString c := by
  have hquote : ('\n' == '"') = (Cursor.endMark == '"') := by decide
  exact Cursor.lookahead_extend w (p := (· == '"')) hquote (Nat.zero_le _)

theorem local_console : console.Local := by
  apply forall_rule
  · exact Rule.local_lineComment (by decide)
  · exact Rule.local_blockComment "*/" (by decide)
  · exact fun key kind _ hkey _ => Rule.local_literal hkey kind
  · exact fun key kind _ hkey _ => Rule.local_keyword hkey kind
  · exact Rule.local_valued _ startsNumber_extend Scan.local_readNumber
  · exact Rule.local_valued _ startsIdentifier_extend (Scan.local_readIdentifier.map _)
  · exact Rule.local_valued _ (fun _ => startsString_extend _) (Scan.local_readString.map _)

end Vocabulary

end ConsoleScript
