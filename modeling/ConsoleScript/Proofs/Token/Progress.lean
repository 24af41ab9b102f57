import ConsoleScript.Proofs.Syntax.Stream
import ConsoleScript.Syntax.Kind

/-!
# Every lexeme takes text

No rule of the console language reads a lexeme of no characters, so the guards against a lexer that
stands still never fail, and a lexer that is asked again and again comes to the end of its text.
-/

namespace ConsoleScript

open Text

namespace Cursor

/-- The cursor goes over these characters to another place. -/
structure Passes (c : Cursor) (taken : List Char) (after : Cursor) : Prop where
  rest : c.rest = taken ++ after.rest
  position : after.position = c.position + taken.length

theorem Passes.refl (c : Cursor) : c.Passes [] c :=
  ⟨rfl, rfl⟩

theorem Passes.trans {a b c : Cursor} {s t : List Char} (h : a.Passes s b) (h' : b.Passes t c) :
    a.Passes (s ++ t) c := by
  refine ⟨?_, ?_⟩
  · rw [h.rest, h'.rest, List.append_assoc]
  · rw [h'.position, h.position, List.length_append, Nat.add_assoc]

theorem Passes.rest_eq {c after : Cursor} {taken tail : List Char} (h : c.Passes taken after)
    (hrest : c.rest = taken ++ tail) : after.rest = tail :=
  List.append_cancel_left (h.rest.symm.trans hrest)

theorem passes_advanceBy (n : Nat) (c : Cursor) : c.Passes (c.rest.take n) (c.advanceBy n) := by
  refine ⟨?_, ?_⟩
  · rw [rest_advanceBy, List.take_append_drop]
  · rw [position_advanceBy, List.length_take]

theorem passes_advance (c : Cursor) : c.Passes (c.rest.take 1) c.advance := by
  cases h : c.rest with
  | nil =>
    have hsame : c.advance = c := by simp [advance, h]
    rw [hsame]
    exact .refl c
  | cons x rest =>
    rw [advance_of_rest h]
    exact ⟨h, rfl⟩

theorem passes_skipWhile (p : Char → Bool) (c : Cursor) :
    c.Passes (c.run p) (c.skipWhile p) := by
  have h := passes_advanceBy (c.run p).length c
  have htake : c.rest.take (c.run p).length = c.run p :=
    List.prefix_iff_eq_take.mp (List.takeWhile_prefix p) ▸ rfl
  rwa [htake] at h

theorem rest_of_startsWith {c : Cursor} {key : String} (h : c.startsWith key = true) :
    ∃ rest, c.rest = key.toList ++ rest := by
  obtain ⟨rest, hrest⟩ := List.isPrefixOf_iff_prefix.mp h
  exact ⟨rest, hrest.symm⟩

theorem rest_of_current {c : Cursor} (h : c.current ≠ endMark) :
    ∃ rest, c.rest = c.current :: rest := by
  cases hrest : c.rest with
  | nil =>
    refine absurd ?_ h
    simp [current, lookahead, hrest]
  | cons x rest => exact ⟨rest, by simp [current, lookahead, hrest]⟩

theorem run_ne_nil {c : Cursor} {p : Char → Bool} (h : c.current ≠ endMark) (hp : p c.current) :
    c.run p ≠ [] := by
  obtain ⟨rest, hrest⟩ := rest_of_current h
  rw [run, hrest, List.takeWhile_cons_of_pos hp]
  exact List.cons_ne_nil _ _

end Cursor

namespace Scan

/-- Where the reader succeeds it goes over characters, and over at least one where `p` holds. -/
def Takes {α : Type} (read : Scan α) (p : Cursor → Prop) : Prop :=
  ∀ ⦃c : Cursor⦄ ⦃a : α⦄ ⦃after : Cursor⦄, read c = .ok a after →
    ∃ taken, c.Passes taken after ∧ (p c → taken ≠ [])

theorem Takes.map {α β : Type} {read : Scan α} {p : Cursor → Prop} (h : Takes read p)
    (f : α → β) : Takes (f <$> read) p := by
  intro c b after hread
  obtain ⟨a, c₁, ha, hb⟩ := bind_ok hread
  cases hb
  exact h ha

theorem readWhile_takes (p : Char → Bool) :
    Takes (readWhile p) fun c => c.current ≠ Cursor.endMark ∧ p c.current := by
  intro c chars after h
  cases h
  exact ⟨c.run p, c.passes_skipWhile p, fun hc => Cursor.run_ne_nil hc.1 hc.2⟩

theorem readIdentifier_takes : Takes readIdentifier (Vocabulary.startsIdentifier ·) := by
  intro c name after h
  obtain ⟨chars, c₁, hchars, h⟩ := bind_ok h
  cases h
  obtain ⟨taken, hpasses, hne⟩ := readWhile_takes isWordChar hchars
  refine ⟨taken, hpasses, fun hstarts => hne ?_⟩
  have hword : isWordChar c.current := by
    simp only [Vocabulary.startsIdentifier, Bool.or_eq_true, Bool.and_eq_true] at hstarts
    simp only [isWordChar, isAlphanumeric, Bool.or_eq_true]
    exact hstarts.imp .inl And.left
  refine ⟨fun hend => ?_, hword⟩
  rw [hend] at hword
  exact absurd hword (by decide)

theorem readDigits_takes : Takes readDigits (·.current.isDigit) := by
  intro c digits after h
  obtain ⟨chars, c₁, hchars, h⟩ := bind_ok h
  cases h
  obtain ⟨taken, hpasses, hne⟩ := readWhile_takes _ hchars
  refine ⟨taken, hpasses, fun (hdigit : c.current.isDigit) => hne ⟨fun hend => ?_, ?_⟩⟩
  · rw [hend] at hdigit
    exact absurd hdigit (by decide)
  · simp [hdigit]

theorem readFraction_takes : Takes readFraction (·.current = '.') := by
  intro c fraction after h
  obtain ⟨p, hp, h⟩ := get_bind_ok h
  split at hp
  · rename_i hpoint
    subst hp
    obtain ⟨_, c₁, hadvance, h⟩ := bind_ok h
    cases hadvance
    obtain ⟨digits, c₂, hdigits, h⟩ := bind_ok h
    cases h
    obtain ⟨rest, hrest⟩ := Cursor.rest_of_current (c := c) (by rw [hpoint]; decide)
    obtain ⟨taken, hpasses, _⟩ := readDigits_takes hdigits
    exact ⟨_, c.passes_advance.trans hpasses, fun _ => by simp [hrest]⟩
  · rename_i hpoint
    subst hp
    cases h
    exact ⟨[], .refl c, fun h => absurd h hpoint⟩

theorem readFloatSuffix_takes : Takes readFloatSuffix fun _ => False := by
  intro c suffixed after h
  obtain ⟨p, hp, h⟩ := get_bind_ok h
  split at hp
  · subst hp
    obtain ⟨_, c₁, hadvance, h⟩ := bind_ok h
    cases hadvance
    cases h
    exact ⟨_, c.passes_advance, False.elim⟩
  · subst hp
    cases h
    exact ⟨[], .refl c, False.elim⟩

theorem readNumber_takes : Takes readNumber (Vocabulary.startsNumber ·) := by
  intro c literal after h
  obtain ⟨_, rfl, h⟩ := get_bind_ok h
  obtain ⟨whole, c₁, hwhole, h⟩ := bind_ok h
  obtain ⟨fraction, c₂, hfraction, h⟩ := bind_ok h
  obtain ⟨suffixed, c₃, hsuffixed, h⟩ := bind_ok h
  obtain ⟨p, hp, h⟩ : ∃ p : Scan Literal, _ = p ∧ p c₃ = .ok literal after := ⟨_, rfl, h⟩
  dsimp only at hp
  split at hp
  · subst hp
    cases h
    obtain ⟨s, hs, hne_s⟩ := readDigits_takes hwhole
    obtain ⟨t, ht, hne_t⟩ := readFraction_takes hfraction
    obtain ⟨u, hu, _⟩ := readFloatSuffix_takes hsuffixed
    refine ⟨_, (hs.trans ht).trans hu, fun hstarts hnil => ?_⟩
    obtain ⟨rfl, rfl⟩ : s = [] ∧ t = [] := by
      simp only [List.append_eq_nil_iff] at hnil
      exact hnil.1
    -- With nothing before the point, the fraction starts where the number does.
    have hsame : c₁.rest = c.rest := hs.rest.symm
    have hcurrent : c₁.current = c.current := by simp [Cursor.current, Cursor.lookahead, hsame]
    simp only [Vocabulary.startsNumber, Bool.or_eq_true, Bool.and_eq_true, beq_iff_eq] at hstarts
    rcases hstarts with hdigit | ⟨hpoint, _⟩
    · exact hne_s hdigit rfl
    · exact hne_t (hcurrent.trans hpoint) rfl
  · subst hp
    cases h

theorem readString_takes : Takes readString (Vocabulary.startsString ·) := by
  intro c text after h
  cases hrest : c.rest with
  | nil =>
    have hopened : c.advance = c := by simp [Cursor.advance, hrest]
    simp only [readString, hopened, hrest, unquote] at h
    cases h
  | cons x rest =>
    unfold readString at h
    dsimp only at h
    split at h
    · cases h
      exact ⟨_, c.passes_advance.trans (Cursor.passes_advanceBy _ _), fun _ => by simp [hrest]⟩
    · cases h

end Scan

namespace Rule

variable {κ : Type}

/-- Where the rule applies and can be read, it takes at least one character. -/
def Progresses (r : Rule κ) : Prop :=
  ∀ ⦃c : Cursor⦄ ⦃lexeme : Lexeme κ⦄ ⦃after : Cursor⦄, r.applies c → r.run c = .ok lexeme after →
    ∃ taken, c.Passes taken after ∧ taken ≠ []

theorem progresses_of_key {r : Rule κ} {key : String} {kind : κ} (hkey : r.key = some key)
    (hread : r.read = plainToken kind) (hne : key.toList ≠ [])
    (happlies : ∀ c, r.applies c → c.startsWith key) : r.Progresses := by
  intro c lexeme after hc h
  obtain ⟨rest, hrest⟩ := Cursor.rest_of_startsWith (happlies c hc)
  unfold run at h
  rw [hread] at h
  cases h
  refine ⟨_, c.passes_advanceBy r.keyLength, ?_⟩
  have hlength : r.keyLength = key.toList.length := by simp [keyLength, hkey, String.length_toList]
  rw [hrest, hlength, List.take_left]
  exact hne

theorem progresses_literal {key : String} (hne : key.toList ≠ []) (kind : κ) :
    (literal key kind).Progresses :=
  progresses_of_key rfl rfl hne fun _ h => h

theorem progresses_keyword {key : String} (hne : key.toList ≠ []) (kind : κ) :
    (keyword key kind).Progresses :=
  progresses_of_key rfl rfl hne fun _ h => (Bool.and_eq_true _ _ ▸ h).1

theorem valued_run {applies : Cursor → Bool} {read : Scan Literal} {kind : Literal → κ}
    {c after : Cursor} {lexeme : Lexeme κ}
    (h : (valued applies read kind).run c = .ok lexeme after) :
    ∃ value, read c = .ok value after ∧
      lexeme = .token (Token.withValue (kind value) value c.line) := by
  obtain ⟨lexeme', mid, hread, h⟩ := bind_ok h
  cases h
  obtain ⟨_, rfl, hread⟩ := get_bind_ok hread
  obtain ⟨value, mid', hvalue, hread⟩ := bind_ok hread
  cases hread
  exact ⟨value, hvalue, rfl⟩

theorem progresses_valued {applies : Cursor → Bool} {read : Scan Literal} (kind : Literal → κ)
    (h : Scan.Takes read (applies ·)) : (valued applies read kind).Progresses := by
  intro c lexeme after hc hrun
  obtain ⟨value, hvalue, _⟩ := valued_run hrun
  obtain ⟨taken, hpasses, hne⟩ := h hvalue
  exact ⟨taken, hpasses, hne hc⟩

theorem progresses_lineComment {opening : String} {x : Char} {chars : List Char}
    (hopening : opening.toList = x :: chars) (hx : x ≠ '\n') :
    (lineComment opening : Rule κ).Progresses := by
  intro c lexeme after hc hrun
  obtain ⟨rest, hrest⟩ := Cursor.rest_of_startsWith hc
  rw [hopening] at hrest
  cases hrun
  refine ⟨_, (c.passes_skipWhile _).trans (Cursor.passes_advance _), ?_⟩
  simp [Cursor.run, hrest, hx]

theorem progresses_blockComment {opening : String} (closing : String)
    (hopening : opening.toList ≠ []) : (blockComment opening closing : Rule κ).Progresses := by
  intro c lexeme after hc hrun
  obtain ⟨rest, hrest⟩ := Cursor.rest_of_startsWith hc
  cases hrun
  refine ⟨_, (c.passes_advanceBy opening.length).trans (Cursor.passes_advanceBy _ _), ?_⟩
  rw [← String.length_toList, hrest, List.take_left]
  simp [hopening]

end Rule

def RuleSet.Progresses {κ : Type} (set : RuleSet κ) : Prop :=
  ∀ r ∈ set.rules, r.Progresses

namespace Vocabulary

/-- What holds of every rule of the console language. No key is empty or goes over a line break, and
none stands for the end of the text. -/
theorem forall_rule {P : Rule Kind → Prop} (hline : P (.lineComment "//"))
    (hblock : P (.blockComment "/*" "*/"))
    (hliteral : ∀ key kind, key.toList ≠ [] → '\n' ∉ key.toList → kind ≠ .endOfText →
      P (.literal key kind))
    (hkeyword : ∀ key kind, key.toList ≠ [] → '\n' ∉ key.toList → kind ≠ .endOfText →
      P (.keyword key kind))
    (hnumber : P (.valued startsNumber Scan.readNumber Kind.ofNumber))
    (hidentifier : P (.valued startsIdentifier (Literal.text <$> Scan.readIdentifier)
      fun _ => .identifier))
    (hstring : P (.valued startsString (Literal.text <$> Scan.readString) fun _ => .string)) :
    ∀ r ∈ console.rules, P r := by
  intro r hr
  rcases List.mem_append.mp hr with hr | hr
  · simp only [CommentStyle.rules, CommentStyle.slashes, Option.map_some, Option.toList_some,
      List.cons_append, List.nil_append, List.mem_cons, List.not_mem_nil, or_false] at hr
    rcases hr with rfl | rfl
    · exact hline
    · exact hblock
  · have hr := (RuleSet.orderByKey_perm rules).mem_iff.mp hr
    simp only [rules, List.mem_append] at hr
    rcases hr with (hr | hr) | hr
    · simp only [punctuation, List.mem_cons, List.not_mem_nil, or_false] at hr
      rcases hr with rfl | rfl | rfl | rfl | rfl | rfl | rfl | rfl | rfl | rfl | rfl <;>
        exact hliteral _ _ (by decide) (by decide) (by decide)
    · simp only [reservedWords, List.mem_cons, List.not_mem_nil, or_false] at hr
      rcases hr with rfl | rfl | rfl | rfl | rfl | rfl | rfl | rfl | rfl | rfl | rfl <;>
        exact hkeyword _ _ (by decide) (by decide) (by decide)
    · simp only [literals, List.mem_cons, List.not_mem_nil, or_false] at hr
      rcases hr with rfl | rfl | rfl
      · exact hnumber
      · exact hidentifier
      · exact hstring

theorem progresses_console : console.Progresses := by
  apply forall_rule
  · have hopening : "//".toList = ['/', '/'] := rfl
    exact Rule.progresses_lineComment hopening (by decide)
  · exact Rule.progresses_blockComment "*/" (by decide)
  · exact fun key kind hne _ _ => Rule.progresses_literal hne kind
  · exact fun key kind hne _ _ => Rule.progresses_keyword hne kind
  · exact Rule.progresses_valued _ Scan.readNumber_takes
  · exact Rule.progresses_valued _ (Scan.readIdentifier_takes.map _)
  · exact Rule.progresses_valued _ (Scan.readString_takes.map _)

end Vocabulary

namespace RuleSet

variable {κ : Type} [TokenKind κ] {set : RuleSet κ}

omit [TokenKind κ] in
theorem select_some {c : Cursor} {r : Rule κ} (h : set.select c = some r) :
    r ∈ set.rules ∧ r.applies c := by
  unfold select at h
  refine ⟨List.mem_of_find?_eq_some h, ?_⟩
  have happlies := List.find?_some h
  exact happlies

/-- Only the end of a text is read as a token of no characters, and nothing is skipped where no
character is. -/
theorem step_progresses (hset : set.Progresses) (c : Cursor) :
    match set.step c with
    | .token t after =>
      (c.rest = [] ∧ t = Token.endOfText c.line ∧ after = c) ∨
        ∃ taken, c.Passes taken after ∧ taken ≠ []
    | .skipped after => ∃ taken, c.Passes taken after ∧ taken ≠ []
    | .failure _ _ => True := by
  by_cases hend : c.atEnd
  · rw [step, if_pos hend]
    exact .inl ⟨c.atEnd_iff.mp hend, rfl, rfl⟩
  by_cases hblank : isBlank c.current
  · rw [step, if_neg hend, if_pos hblank]
    refine ⟨_, c.passes_skipWhile isBlank, Cursor.run_ne_nil (fun hmark => ?_) hblank⟩
    rw [hmark] at hblank
    exact absurd hblank (by decide)
  rw [step, if_neg hend, if_neg hblank]
  cases hselect : set.select c with
  | none => trivial
  | some rule =>
    obtain ⟨hmem, happlies⟩ := select_some hselect
    dsimp only
    cases hrun : rule.run c with
    | ok lexeme after =>
      have hpasses := hset rule hmem happlies hrun
      cases lexeme with
      | token t => exact .inr hpasses
      | skip => exact hpasses
    | error e after => trivial

/-- What a scan gives: the end, where nothing is left, or a token that took some text. -/
theorem scan_ok (hset : set.Progresses) {size : Nat} {c after : Cursor} {t : Token κ}
    (h : set.scan size c = .ok t after) :
    ∃ taken, c.Passes taken after ∧
      (after.rest = [] ∧ t = Token.endOfText after.line ∨ taken ≠ []) := by
  have hsteps := step_progresses hset
  induction c using RuleSet.scan.induct set size with
  | case1 c t' after' hstep =>
    rw [scan, hstep] at h
    cases h
    have hc := hsteps c
    rw [hstep] at hc
    rcases hc with ⟨hnil, rfl, rfl⟩ | ⟨taken, hpasses, hne⟩
    · exact ⟨[], .refl _, .inl ⟨hnil, rfl⟩⟩
    · exact ⟨taken, hpasses, .inr hne⟩
  | case2 c e after' hstep =>
    rw [scan, hstep] at h
    cases h
  | case3 c after' hstep hmoved ih =>
    rw [scan, hstep] at h
    simp only [hmoved, ↓reduceDIte] at h
    have hc := hsteps c
    rw [hstep] at hc
    obtain ⟨skipped, hskipped, hne⟩ := hc
    obtain ⟨taken, hpasses, _⟩ := ih h
    exact ⟨_, hskipped.trans hpasses, .inr (by simp [hne])⟩
  | case4 c after' hstep hmoved =>
    rw [scan, hstep] at h
    simp only [hmoved, ↓reduceDIte] at h
    cases h

/-- What steps of the lexer come to, however many there are. -/
inductive Scans (set : RuleSet κ) : Cursor → EStateM.Result LexError Cursor (Token κ) → Prop where
  | token {c after : Cursor} {t : Token κ} (h : set.step c = .token t after) :
      Scans set c (.ok t after)
  | failure {c after : Cursor} {e : LexError} (h : set.step c = .failure e after) :
      Scans set c (.error e after)
  | skipped {c after : Cursor} {r : EStateM.Result LexError Cursor (Token κ)}
      (h : set.step c = .skipped after) (more : Scans set after r) : Scans set c r

/-- In a text of the given size the guard of a scan never fails. -/
theorem scans_scan (hset : set.Progresses) {size : Nat} {c : Cursor}
    (hsize : c.position + c.rest.length = size) : set.Scans c (set.scan size c) := by
  have hmoves {c after : Cursor} (hstep : set.step c = .skipped after)
      (hsize : c.position + c.rest.length = size) :
      after.position + after.rest.length = size ∧ size - after.position < size - c.position := by
    have hc := step_progresses hset c
    rw [hstep] at hc
    obtain ⟨taken, hpasses, hne⟩ := hc
    have hrest : c.rest.length = taken.length + after.rest.length := by
      rw [hpasses.rest, List.length_append]
    have hposition := hpasses.position
    have htaken : 0 < taken.length := List.length_pos_iff.mpr hne
    omega
  induction c using RuleSet.scan.induct set size with
  | case1 c t after hstep =>
    rw [scan, hstep]
    exact .token hstep
  | case2 c e after hstep =>
    rw [scan, hstep]
    exact .failure hstep
  | case3 c after hstep hmoved ih =>
    rw [scan, hstep]
    simp only [hmoved, ↓reduceDIte]
    exact .skipped hstep (ih (hmoves hstep hsize).1)
  | case4 c after hstep hmoved => exact absurd (hmoves hstep hsize).2 hmoved

end RuleSet

namespace Lexer

variable {κ : Type}

/-- The rules take text, and the cursor is in the text whose size is given. -/
structure Steady (l : Lexer κ) : Prop where
  rules : l.rules.Progresses
  size : l.cursor.position + l.cursor.rest.length = l.size

theorem steady_start {rules : RuleSet κ} (h : rules.Progresses) (text : String) :
    (start rules text).Steady := by
  refine ⟨h, ?_⟩
  simp [size, start, Cursor.start, String.length_toList]

variable [TokenKind κ]

theorem next_ok {l l' : Lexer κ} {t : Token κ} (hl : l.Steady) (h : l.next = .ok t l') :
    l'.Steady ∧ l'.remaining ≤ l.remaining ∧ (t.isEnd = false → l'.remaining < l.remaining) := by
  unfold next at h
  split at h
  · cases h
  · split at h
    · rename_i after hscan
      cases h
      obtain ⟨taken, hpasses, hend⟩ := RuleSet.scan_ok hl.rules hscan
      have hrest : l.cursor.rest.length = taken.length + after.rest.length := by
        rw [hpasses.rest, List.length_append]
      have hposition := hpasses.position
      have hsize : l.cursor.position + l.cursor.rest.length = l.text.size := hl.size
      refine ⟨⟨hl.rules, ?_⟩, ?_, fun ht => ?_⟩
      · simp only [size]
        omega
      · simp only [remaining, size]
        omega
      · rcases hend with ⟨_, rfl⟩ | hne
        · simp [Token.isEnd, Token.endOfText, Token.plain] at ht
        · have htaken : 0 < taken.length := List.length_pos_iff.mpr hne
          simp only [remaining, size]
          omega
    · cases h

theorem takeTokens_of_delivers {e : Token κ} (he : e.isEnd) {ts : List (Token κ)}
    (hts : ∀ t ∈ ts, t.isEnd = false) {l : Lexer κ} (hl : l.Steady)
    (h : Delivers l (ts ++ [e])) (taken : List (Token κ)) :
    ∃ l', takeTokens taken l = .ok (taken.reverse ++ ts) l' := by
  induction ts generalizing l taken with
  | nil =>
    cases h with
    | @cons _ l' _ _ hnext _ =>
      have hnext : l.next = .ok e l' := hnext
      refine ⟨l', ?_⟩
      rw [takeTokens, hnext]
      simp [he]
  | cons t ts ih =>
    cases h with
    | @cons _ l' _ _ hnext hmore =>
      have hnext : l.next = .ok t l' := hnext
      have ht : t.isEnd = false := hts t List.mem_cons_self
      obtain ⟨hl', _, hlt⟩ := next_ok hl hnext
      obtain ⟨after, hafter⟩ :=
        ih (fun u hu => hts u (List.mem_cons_of_mem t hu)) hl' hmore (t :: taken)
      refine ⟨after, ?_⟩
      rw [takeTokens, hnext]
      simp only [ht, Bool.false_eq_true, ↓reduceIte, hlt ht, ↓reduceDIte, hafter]
      simp

end Lexer

end ConsoleScript
