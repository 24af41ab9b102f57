import ConsoleScript.Proofs.Token.Locality
import ConsoleScript.Syntax.Window
import Mathlib.Data.List.TakeWhile

/-!
# Texts joined by a line break

Where no block comment is left open, the tokens of two texts with a line break between them are the
tokens of the first followed by those of the second, which are only on later lines.
-/

namespace ConsoleScript

open Text

variable {κ : Type} [TokenKind κ]

theorem Cursor.skipBlanks_of_not_blank {c : Cursor} (h : isBlank c.current = false) :
    c.skipBlanks = c := by
  have hrun : c.run isBlank = [] := by
    cases hrest : c.rest with
    | nil => rw [run, hrest, List.takeWhile_nil]
    | cons x rest =>
      rw [current, lookahead, hrest] at h
      rw [run, hrest, List.takeWhile_cons_of_neg (by simpa using h)]
  rw [skipBlanks, skipWhile, hrun]
  rfl

theorem Cursor.skipBlanks_of_rest_nil {c : Cursor} (h : c.rest = []) : c.skipBlanks = c :=
  advanceBy_of_rest_nil _ h

namespace RuleSet

/-- Step by step, the lexer comes from one place to another and gives these tokens on the way. -/
inductive Lexes (set : RuleSet κ) : Cursor → List (Token κ) → Cursor → Prop where
  | refl (c : Cursor) : Lexes set c [] c
  | token {c after d : Cursor} {t : Token κ} {ts : List (Token κ)} (hne : c.rest ≠ [])
      (hstep : set.step c = .token t after) (more : Lexes set after ts d) :
      Lexes set c (t :: ts) d
  | skipped {c after d : Cursor} {ts : List (Token κ)} (hstep : set.step c = .skipped after)
      (more : Lexes set after ts d) : Lexes set c ts d

variable {set : RuleSet κ} {c d e after : Cursor} {t : Token κ} {ts us : List (Token κ)}

/-- No rule gives the end of the text for a token. -/
def Proper (set : RuleSet κ) : Prop :=
  ∀ r ∈ set.rules, ∀ {c : Cursor} {t : Token κ} {after : Cursor}, r.run c = .ok (.token t) after →
    t.isEnd = false

/-! ### Steps -/

theorem step_of_rest_nil (h : c.rest = []) : set.step c = .token (Token.endOfText c.line) c := by
  rw [step, if_pos (c.atEnd_iff.mpr h)]

theorem step_of_blank (hne : c.rest ≠ []) (h : isBlank c.current) :
    set.step c = .skipped c.skipBlanks := by
  rw [step, if_neg (by simpa using hne), if_pos h]

theorem step_of_token {r : Rule κ} (hne : c.rest ≠ []) (hblank : isBlank c.current = false)
    (hselect : set.select c = some r) (hrun : r.run c = .ok (.token t) after) :
    set.step c = .token t after := by
  simp only [step, Cursor.atEnd_iff, hne, hblank, hselect, hrun, Bool.false_eq_true, ↓reduceIte]

theorem step_of_error {r : Rule κ} {failure : LexError} (hne : c.rest ≠ [])
    (hblank : isBlank c.current = false) (hselect : set.select c = some r)
    (hrun : r.run c = .error failure after) : set.step c = .failure failure after := by
  simp only [step, Cursor.atEnd_iff, hne, hblank, hselect, hrun, Bool.false_eq_true, ↓reduceIte]

theorem token_of_step (hne : c.rest ≠ []) (h : set.step c = .token t after) :
    isBlank c.current = false ∧ ∃ r, set.select c = some r ∧ r.run c = .ok (.token t) after := by
  simp only [step, Cursor.atEnd_iff, hne, ↓reduceIte] at h
  split at h
  · cases h
  · rename_i hblank
    refine ⟨by simpa using hblank, ?_⟩
    split at h
    · cases h
    · rename_i r hselect
      refine ⟨r, hselect, ?_⟩
      split at h <;> cases h
      assumption

theorem skip_of_step (h : set.step c = .skipped after) :
    c.rest ≠ [] ∧ (isBlank c.current ∧ after = c.skipBlanks ∨
      isBlank c.current = false ∧ ∃ r, set.select c = some r ∧ r.run c = .ok .skip after) := by
  have hne : c.rest ≠ [] := by
    intro hnil
    rw [step_of_rest_nil hnil] at h
    cases h
  refine ⟨hne, ?_⟩
  simp only [step, Cursor.atEnd_iff, hne, ↓reduceIte] at h
  split at h
  · rename_i hblank
    cases h
    exact .inl ⟨hblank, rfl⟩
  · rename_i hblank
    refine .inr ⟨by simpa using hblank, ?_⟩
    split at h
    · cases h
    · rename_i r hselect
      refine ⟨r, hselect, ?_⟩
      split at h <;> cases h
      assumption

theorem step_extend (hset : set.Local) (hne : c.rest ≠ []) (h : set.step c = .token t after)
    (w : List Char) :
    set.step (c.extend ('\n' :: w)) = .token t (after.extend ('\n' :: w)) := by
  obtain ⟨hblank, r, hselect, hrun⟩ := token_of_step hne h
  obtain ⟨hmem, happlies⟩ := select_some hselect
  have hselect' : set.select (c.extend ('\n' :: w)) = some r := by
    rw [← hselect]
    apply List.find?_congr
    intro r hr
    exact (hset r hr).applies hne w
  have hcurrent := Cursor.current_extend hne ('\n' :: w)
  have hne' : (c.extend ('\n' :: w)).rest ≠ [] := by simp [Cursor.extend]
  exact step_of_token hne' (hcurrent ▸ hblank) hselect' ((hset r hmem).token happlies hrun w)

/-! ### Ways of the lexer -/

namespace Lexes

theorem trans (h : set.Lexes c ts d) (h' : set.Lexes d us e) : set.Lexes c (ts ++ us) e := by
  induction h with
  | refl c => exact h'
  | token hne hstep _ ih => exact .token hne hstep (ih h')
  | skipped hstep _ ih => exact .skipped hstep (ih h')

theorem moved (hset : set.Movable) (h : set.Lexes c ts d) (o : Offset) :
    set.Lexes (o.cursor c) (ts.map o.token) (o.cursor d) := by
  induction h with
  | refl c => exact .refl _
  | token hne hstep _ ih => exact .token hne (by rw [step_cursor hset, hstep]; rfl) ih
  | skipped hstep _ ih => exact .skipped (by rw [step_cursor hset, hstep]; rfl) ih

/-- From the end of the text the lexer goes nowhere. -/
theorem of_rest_nil (h : set.Lexes c ts d) (hc : c.rest = []) : ts = [] ∧ d = c := by
  cases h with
  | refl => exact ⟨rfl, rfl⟩
  | token hne _ _ => exact absurd hc hne
  | skipped hstep _ => exact absurd hc (skip_of_step hstep).1

/-- White space may be skipped at once, unless the way ends in the middle of it. -/
theorem skipBlanks (h : set.Lexes c ts d) (hd : d.skipBlanks = d) :
    set.Lexes c.skipBlanks ts d := by
  by_cases hblank : isBlank c.current
  · cases h with
    | refl =>
      rw [hd]
      exact .refl c
    | token hne hstep _ =>
      rw [(token_of_step hne hstep).1] at hblank
      cases hblank
    | skipped hstep more =>
      rw [step_of_blank (skip_of_step hstep).1 hblank] at hstep
      cases hstep
      exact more
  · rwa [Cursor.skipBlanks_of_not_blank (by simpa using hblank)]

theorem not_end (hset : set.Proper) (h : set.Lexes c ts d) : ∀ t ∈ ts, t.isEnd = false := by
  induction h with
  | refl => simp
  | token hne hstep _ ih =>
    obtain ⟨_, r, hselect, hrun⟩ := token_of_step hne hstep
    exact List.forall_mem_cons.mpr ⟨hset r (select_some hselect).1 hrun, ih⟩
  | skipped _ _ ih => exact ih

/-- A scan goes the way to the next token, or to the end. -/
theorem of_scan {size : Nat} (h : set.scan size c = .ok t after) :
    after.rest = [] ∧ t = Token.endOfText after.line ∧ set.Lexes c [] after ∨
      set.Lexes c [t] after := by
  induction c using RuleSet.scan.induct set size with
  | case1 c t' after' hstep =>
    rw [scan, hstep] at h
    cases h
    by_cases hnil : c.rest = []
    · rw [step_of_rest_nil hnil] at hstep
      cases hstep
      exact .inl ⟨hnil, rfl, .refl _⟩
    · exact .inr (.token hnil hstep (.refl _))
  | case2 c e after' hstep =>
    rw [scan, hstep] at h
    cases h
  | case3 c after' hstep hmoved ih =>
    rw [scan, hstep] at h
    simp only [hmoved, ↓reduceDIte] at h
    rcases ih h with ⟨hnil, hend, hway⟩ | hway
    · exact .inl ⟨hnil, hend, .skipped hstep hway⟩
    · exact .inr (.skipped hstep hway)
  | case4 c after' hstep hmoved =>
    rw [scan, hstep] at h
    simp only [hmoved, ↓reduceDIte] at h
    cases h

theorem scan_of_skipped (hset : set.Progresses) {size : Nat}
    (hsize : c.position + c.rest.length = size) (hstep : set.step c = .skipped after) :
    set.scan size c = set.scan size after ∧ after.position + after.rest.length = size := by
  have hprogress := step_progresses hset c
  rw [hstep] at hprogress
  obtain ⟨taken, hpasses, hne⟩ := hprogress
  have hrest : c.rest.length = taken.length + after.rest.length := by
    rw [hpasses.rest, List.length_append]
  have hposition := hpasses.position
  have htaken : 0 < taken.length := List.length_pos_iff.mpr hne
  constructor
  · rw [scan, hstep]
    have hmoved : size - after.position < size - c.position := by omega
    simp only [hmoved, ↓reduceDIte]
  · omega

theorem scan_end (hset : set.Progresses) (h : set.Lexes c [] d) (hd : d.rest = []) {size : Nat}
    (hsize : c.position + c.rest.length = size) :
    set.scan size c = .ok (Token.endOfText d.line) d := by
  generalize hts : ([] : List (Token κ)) = ts at h
  induction h with
  | refl c => rw [scan, step_of_rest_nil hd]
  | token => cases hts
  | skipped hstep _ ih =>
    obtain ⟨hscan, hsize'⟩ := scan_of_skipped hset hsize hstep
    rw [hscan]
    exact ih hd hsize' hts

theorem scan_token (hset : set.Progresses) (h : set.Lexes c (t :: ts) d) {size : Nat}
    (hsize : c.position + c.rest.length = size) :
    ∃ after, set.scan size c = .ok t after ∧ set.Lexes after ts d := by
  generalize hts : t :: ts = us at h
  induction h with
  | refl c => cases hts
  | token _ hstep more =>
    cases hts
    exact ⟨_, by rw [scan, hstep], more⟩
  | skipped hstep _ ih =>
    obtain ⟨hscan, hsize'⟩ := scan_of_skipped hset hsize hstep
    rw [hscan]
    exact ih hsize' hts

end Lexes

end RuleSet

namespace Lexer

variable {l : Lexer κ} {d : Cursor} {ts : List (Token κ)}

theorem next_of_scan {t : Token κ} {after : Cursor} (hfresh : l.failures = [])
    (hscan : l.rules.scan l.size l.cursor = .ok t after) :
    l.next = .ok t { l with cursor := after } := by
  simp only [next, hfresh, hscan]

theorem next_of_scan_error {e : LexError} {after : Cursor} (hfresh : l.failures = [])
    (hscan : l.rules.scan l.size l.cursor = .error e after) :
    l.next = .error e (fail e { l with cursor := after }) := by
  simp only [next, hfresh, hscan]

theorem scan_of_next {l' : Lexer κ} {t : Token κ} (hfresh : l.failures = [])
    (h : l.next = .ok t l') :
    ∃ after, l.rules.scan l.size l.cursor = .ok t after ∧ l' = { l with cursor := after } := by
  cases hscan : l.rules.scan l.size l.cursor with
  | ok u after =>
    rw [next_of_scan hfresh hscan] at h
    cases h
    exact ⟨after, rfl, rfl⟩
  | error e after =>
    simp only [next, hfresh, hscan] at h
    cases h

/-- The lexer gives the tokens on the way to the end of its text, and then the end as often as it is
asked for. -/
theorem delivers_of_lexes (hl : l.Steady) (hfresh : l.failures = [])
    (h : l.rules.Lexes l.cursor ts d) (hd : d.rest = []) :
    Delivers l (ts ++ [Token.endOfText d.line, Token.endOfText d.line]) := by
  induction ts generalizing l with
  | nil =>
    have hnext := next_of_scan hfresh (h.scan_end hl.rules hd hl.size)
    have hagain : next { l with cursor := d } =
        .ok (Token.endOfText d.line) { l with cursor := d } :=
      next_of_scan hfresh (by rw [RuleSet.scan, RuleSet.step_of_rest_nil hd])
    exact .cons hnext (.cons hagain (.nil _))
  | cons t ts ih =>
    obtain ⟨after, hscan, more⟩ := h.scan_token hl.rules hl.size
    have hnext := next_of_scan hfresh hscan
    exact .cons hnext (ih (next_ok hl hnext).1 hfresh more)

theorem lexes_of_delivers {last : Token κ} (hproper : l.rules.Proper) (hfresh : l.failures = [])
    (h : Delivers l (ts ++ [last])) (hts : ∀ t ∈ ts, t.isEnd = false) (hlast : last.isEnd) :
    ∃ d, l.rules.Lexes l.cursor ts d ∧ d.rest = [] := by
  induction ts generalizing l with
  | nil =>
    cases h with
    | @cons _ l' _ _ hnext _ =>
      obtain ⟨after, hscan, rfl⟩ := scan_of_next hfresh hnext
      rcases RuleSet.Lexes.of_scan hscan with ⟨hnil, _, hway⟩ | hway
      · exact ⟨after, hway, hnil⟩
      · rw [hway.not_end hproper last (List.mem_singleton_self last)] at hlast
        cases hlast
  | cons t ts ih =>
    cases h with
    | @cons _ l' _ _ hnext more =>
      obtain ⟨after, hscan, rfl⟩ := scan_of_next hfresh hnext
      rcases RuleSet.Lexes.of_scan hscan with ⟨_, rfl, _⟩ | hway
      · have hend := hts _ List.mem_cons_self
        simp [Token.isEnd, Token.endOfText, Token.plain] at hend
      · obtain ⟨d, hmore, hd⟩ := ih (l := { l with cursor := after }) hproper hfresh more
          fun u hu => hts u (List.mem_cons_of_mem _ hu)
        exact ⟨d, hway.trans hmore, hd⟩

end Lexer

/-! ### Comments -/

namespace Cursor

theorem skipBlanks_of_blank {c : Cursor} {x : Char} {rest : List Char} (h : c.rest = x :: rest)
    (hx : isBlank x) : c.skipBlanks = c.advance.skipBlanks := by
  have hrun : c.run isBlank = x :: c.advance.run isBlank := by
    rw [run, run, h, List.takeWhile_cons_of_pos hx, advance_of_rest h]
  rw [skipBlanks, skipWhile, hrun, List.length_cons, advanceBy_succ_of_rest _ h]
  rfl

theorem skipBlanks_extend (c : Cursor) (w : List Char) :
    (c.extend ('\n' :: w)).skipBlanks = (c.skipBlanks.extend ('\n' :: w)).skipBlanks := by
  generalize hrest : c.rest = chars
  induction chars generalizing c with
  | nil =>
    have hend : c.current = endMark := by simp [current, lookahead, hrest]
    rw [skipBlanks_of_not_blank (c := c) (by rw [hend]; decide)]
  | cons x chars ih =>
    by_cases hx : isBlank x
    · have hextended : (c.extend ('\n' :: w)).rest = x :: (chars ++ '\n' :: w) := by
        rw [extend, hrest]
        rfl
      rw [skipBlanks_of_blank hextended hx, skipBlanks_of_blank hrest hx,
        advance_extend (by simp [hrest])]
      exact ih c.advance (by rw [advance_of_rest hrest])
    · have hcurrent : c.current = x := by simp [current, lookahead, hrest]
      rw [skipBlanks_of_not_blank (c := c) (by rw [hcurrent]; simpa using hx)]

theorem skipLine_extend {c : Cursor} (h : '\n' ∈ c.rest) (w : List Char) :
    (c.extend ('\n' :: w)).skipLine = c.skipLine.extend ('\n' :: w) := by
  have hne : (c.skipWhile (· ≠ '\n')).rest ≠ [] := by
    rw [rest_skipWhile, ne_eq, List.dropWhile_eq_nil_iff]
    intro hall
    simpa using hall _ h
  rw [skipLine, skipWhile_extend w (by simp), advance_extend hne]
  rfl

theorem skipLine_of_last {c : Cursor} (h : '\n' ∉ c.rest) (w : List Char) :
    c.skipLine.rest = [] ∧ (c.extend ('\n' :: w)).skipLine =
      ⟨c.skipLine.position + 1, c.skipLine.line + 1, w⟩ := by
  have hrest : (c.skipWhile (· ≠ '\n')).rest = [] := by
    rw [rest_skipWhile, List.dropWhile_eq_nil_iff]
    intro x hx
    rw [decide_eq_true_iff]
    rintro rfl
    exact h hx
  have hsame : c.skipLine = c.skipWhile (· ≠ '\n') := by
    rw [skipLine, advance, hrest]
  have hextended : ((c.skipWhile (· ≠ '\n')).extend ('\n' :: w)).rest = '\n' :: w := by
    rw [extend, hrest, List.nil_append]
  rw [hsame]
  refine ⟨hrest, ?_⟩
  rw [skipLine, skipWhile_extend w (by simp), advance_of_rest hextended]
  rfl

theorem distanceTo_nil (passed : Nat) (chars : List Char) :
    distanceTo [] passed chars = passed := by
  cases chars <;> rfl

/-- The first place of a key is found before whatever comes behind it. -/
theorem distanceTo_append {key chars : List Char} (h : key <:+: chars) (passed : Nat)
    (tail : List Char) :
    distanceTo key passed (chars ++ tail) = distanceTo key passed chars ∧
      distanceTo key passed chars + key.length ≤ passed + chars.length := by
  induction chars generalizing passed with
  | nil =>
    cases List.infix_nil.mp h
    simp [distanceTo_nil]
  | cons x chars ih =>
    rw [List.cons_append, distanceTo, distanceTo]
    by_cases hkey : key <+: x :: chars
    · have hkey' : key <+: x :: (chars ++ tail) := hkey.trans (List.prefix_append _ tail)
      rw [if_pos (List.isPrefixOf_iff_prefix.mpr hkey),
        if_pos (List.isPrefixOf_iff_prefix.mpr hkey')]
      exact ⟨rfl, Nat.add_le_add_left hkey.length_le passed⟩
    · have hlater : key <:+: chars := (List.infix_cons_iff.mp h).resolve_left hkey
      have hkey' : ¬ key <+: x :: (chars ++ tail) := by
        intro hlong
        have hshort : x :: chars <+: x :: (chars ++ tail) := List.prefix_append (x :: chars) tail
        have hle := hlater.length_le
        exact hkey (List.prefix_of_prefix_length_le hlong hshort (by simp; omega))
      rw [if_neg (mt List.isPrefixOf_iff_prefix.mp hkey),
        if_neg (mt List.isPrefixOf_iff_prefix.mp hkey')]
      obtain ⟨hsame, hle⟩ := ih hlater (passed + 1)
      refine ⟨hsame, ?_⟩
      rw [List.length_cons]
      omega

theorem skipPast_extend {c : Cursor} {key : String} (h : key.toList <:+: c.rest)
    (tail : List Char) : (c.extend tail).skipPast key = (c.skipPast key).extend tail := by
  obtain ⟨hsame, hle⟩ := distanceTo_append h 0 tail
  rw [String.length_toList, Nat.zero_add] at hle
  have hdistance : distanceTo key.toList 0 (c.extend tail).rest = _ := hsame
  rw [skipPast, hdistance, advanceBy_extend hle]
  rfl

end Cursor

namespace Vocabulary

open RuleSet

variable {c d e after : Cursor} {t : Token Kind} {ts us : List (Token Kind)}

theorem step_of_lineComment (h : c.startsWith "//") : console.step c = .skipped c.skipLine := by
  obtain ⟨rest, hrest⟩ := Cursor.rest_of_startsWith h
  obtain ⟨position, line, chars⟩ := c
  cases hrest
  rfl

theorem step_of_blockComment (h : c.startsWith "/*") :
    console.step c = .skipped ((c.advanceBy 2).skipPast "*/") := by
  obtain ⟨rest, hrest⟩ := Cursor.rest_of_startsWith h
  obtain ⟨position, line, chars⟩ := c
  cases hrest
  rfl

/-- Only comments are skipped by rules. -/
theorem comment_of_skip : ∀ r ∈ console.rules, ∀ {c after : Cursor}, r.applies c →
    r.run c = .ok .skip after → c.startsWith "//" ∧ after = c.skipLine ∨
      c.startsWith "/*" ∧ after = (c.advanceBy 2).skipPast "*/" := by
  apply forall_rule
  · intro c after happlies hrun
    cases hrun
    exact .inl ⟨happlies, rfl⟩
  · intro c after happlies hrun
    cases hrun
    exact .inr ⟨happlies, rfl⟩
  · intro key kind _ _ _ c after _ hrun
    cases hrun
  · intro key kind _ _ _ c after _ hrun
    cases hrun
  all_goals
    intro c after _ hrun
    obtain ⟨value, _, hlexeme⟩ := Rule.valued_run hrun
    cases hlexeme

theorem skipped_of_step (h : console.step c = .skipped after) :
    isBlank c.current ∧ after = c.skipBlanks ∨ c.startsWith "//" ∧ after = c.skipLine ∨
      c.startsWith "/*" ∧ after = (c.advanceBy 2).skipPast "*/" := by
  obtain ⟨hne, hblank | ⟨_, r, hselect, hrun⟩⟩ := skip_of_step h
  · exact .inl hblank
  · obtain ⟨hmem, happlies⟩ := select_some hselect
    exact .inr (comment_of_skip r hmem happlies hrun)

theorem proper_console : console.Proper := by
  apply forall_rule
  · intro c t after hrun
    cases hrun
  · intro c t after hrun
    cases hrun
  · intro key kind _ _ hkind c t after hrun
    cases hrun
    exact beq_eq_false_iff_ne.mpr hkind
  · intro key kind _ _ hkind c t after hrun
    cases hrun
    exact beq_eq_false_iff_ne.mpr hkind
  all_goals
    intro c t after hrun
    obtain ⟨value, _, hlexeme⟩ := Rule.valued_run hrun
    cases hlexeme
  · cases value <;> rfl
  · rfl
  · rfl

/-- Every block comment that the lexer comes to from here is closed. -/
def CommentsClosed (c : Cursor) : Prop :=
  ∀ ts d, console.Lexes c ts d → d.startsWith "/*" → "*/".toList <:+: d.rest.drop 2

theorem lexes_join (h : console.Lexes c ts d) (hend : d.rest = []) (hclosed : CommentsClosed c)
    {w : List Char} (hmore : console.Lexes ⟨d.position + 1, d.line + 1, w⟩ us e)
    (he : e.skipBlanks = e) : console.Lexes (c.extend ('\n' :: w)) (ts ++ us) e := by
  induction h with
  | refl c =>
    have hrest : (c.extend ('\n' :: w)).rest = '\n' :: w := by
      rw [Cursor.extend, hend, List.nil_append]
    have hcurrent : (c.extend ('\n' :: w)).current = '\n' := by
      rw [Cursor.current, Cursor.lookahead, hrest]
      rfl
    apply Lexes.skipped (step_of_blank (by simp [hrest]) (by rw [hcurrent]; decide))
    rw [Cursor.skipBlanks_of_blank hrest (by decide), Cursor.advance_of_rest hrest]
    exact hmore.skipBlanks he
  | @token c after d t ts hne hstep more ih =>
    apply Lexes.token (by simp [Cursor.extend]) (step_extend local_console hne hstep w)
    exact ih hend (fun us e h => hclosed _ e (.token hne hstep h)) hmore
  | @skipped c after d ts hstep more ih =>
    have hlater := ih hend (fun us e h => hclosed us e (.skipped hstep h)) hmore
    rcases skipped_of_step hstep with ⟨hblank, rfl⟩ | ⟨hline, rfl⟩ | ⟨hblock, rfl⟩
    · have hcurrent := Cursor.current_extend (skip_of_step hstep).1 ('\n' :: w)
      apply Lexes.skipped (step_of_blank (by simp [Cursor.extend]) (by rwa [hcurrent]))
      rw [Cursor.skipBlanks_extend]
      exact hlater.skipBlanks he
    · have hline' : (c.extend ('\n' :: w)).startsWith "//" := by
        rwa [Cursor.startsWith_extend w (by decide)]
      apply Lexes.skipped (step_of_lineComment hline')
      by_cases hbreak : '\n' ∈ c.rest
      · rw [Cursor.skipLine_extend hbreak]
        exact hlater
      -- The line break that joins the texts ends the comment.
      · obtain ⟨hnil, hskip⟩ := Cursor.skipLine_of_last hbreak w
        obtain ⟨rfl, rfl⟩ := more.of_rest_nil hnil
        rw [hskip]
        exact hmore
    · have hblock' : (c.extend ('\n' :: w)).startsWith "/*" := by
        rwa [Cursor.startsWith_extend w (by decide)]
      have hopened : 2 ≤ c.rest.length := Rule.length_le_of_startsWith hblock
      have hcloses : "*/".toList <:+: (c.advanceBy 2).rest := by
        rw [Cursor.rest_advanceBy]
        exact hclosed [] c (.refl c) hblock
      apply Lexes.skipped (step_of_blockComment hblock')
      rw [Cursor.advanceBy_extend hopened, Cursor.skipPast_extend hcloses]
      exact hlater

end Vocabulary

end ConsoleScript
