import Mathlib
import ConsoleScript.Proofs.Printing.Printer
import ConsoleScript.Proofs.Token.Progress

/-!
# Every word is read back

Where a word stands before a space or at the end of a text, the lexer reads it as the token it was
written for, and takes no more than the word. For punctuation and reserved words that is a matter of
computation. Names, numbers and strings are left to the last three rules, since no other rule
applies where they start.
-/

namespace ConsoleScript.Printing

open Text Vocabulary

def WordEnd (tail : List Char) : Prop :=
  tail = [] ∨ ∃ rest, tail = ' ' :: rest

/-- The cursor is before the characters, behind which the word ends. -/
structure Stands (chars : List Char) (c : Cursor) (tail : List Char) : Prop where
  rest : c.rest = chars ++ tail
  wordEnd : WordEnd tail

theorem step_mark (m : Mark) {c : Cursor} {tail : List Char} (h : Stands m.text.toList c tail) :
    ∃ after, console.step c = .token (Token.plain m.kind c.line) after ∧
      c.Passes m.text.toList after := by
  obtain ⟨position, line, rest⟩ := c
  obtain ⟨hrest, hwordEnd⟩ := h
  cases hrest
  rcases hwordEnd with rfl | ⟨rest, rfl⟩ <;> cases m <;> exact ⟨_, rfl, rfl, rfl⟩

/-! ### The rules for names, numbers and strings -/

/-- The characters that punctuation and comments start with. -/
def symbols : List Char :=
  ['(', ')', '\x7b', '\x7d', ',', ';', '=', '+', '-', '*', '/']

theorem startsWith_eq_false {c : Cursor} {key : String} (hc : c.current ∉ symbols)
    (hkey : key.toList.head?.any symbols.contains = true) : c.startsWith key = false := by
  rw [Bool.eq_false_iff]
  intro h
  obtain ⟨rest, hrest⟩ := Cursor.rest_of_startsWith h
  cases hchars : key.toList with
  | nil => simp [hchars] at hkey
  | cons x xs =>
    have hcurrent : c.current = x := by simp [Cursor.current, Cursor.lookahead, hrest, hchars]
    rw [hcurrent] at hc
    simp only [hchars, List.head?_cons, Option.any_some, List.contains_iff_mem] at hkey
    exact hc hkey

theorem applies_symbol {r : Rule Kind} (hr : r ∈ CommentStyle.slashes.rules ++ punctuation) :
    ∃ key : String, key.toList.head?.any symbols.contains = true ∧
      ∀ c, r.applies c → c.startsWith key := by
  simp only [CommentStyle.rules, CommentStyle.slashes, punctuation, Option.map_some,
    Option.toList_some, List.cons_append, List.nil_append, List.mem_cons, List.not_mem_nil,
    or_false] at hr
  rcases hr with rfl | rfl | hr
  · exact ⟨"//", by decide, fun _ h => h⟩
  · exact ⟨"/*", by decide, fun _ h => h⟩
  · have hliteral : ∃ (key : String) (kind : Kind), r = Rule.literal key kind ∧
        key.toList.head?.any symbols.contains = true := by
      rcases hr with rfl | rfl | rfl | rfl | rfl | rfl | rfl | rfl | rfl | rfl | rfl <;>
        exact ⟨_, _, rfl, by decide⟩
    obtain ⟨key, kind, rfl, hkey⟩ := hliteral
    exact ⟨key, hkey, fun _ h => h⟩

theorem applies_reservedWord {r : Rule Kind} (hr : r ∈ reservedWords) :
    ∃ key ∈ reserved, ∀ c, r.applies c →
      c.startsWith key ∧ isWordChar (c.lookahead key.length) = false := by
  have hkeyword : ∃ (key : String) (kind : Kind), r = Rule.keyword key kind ∧ key ∈ reserved := by
    simp only [reservedWords, List.mem_cons, List.not_mem_nil, or_false] at hr
    rcases hr with rfl | rfl | rfl | rfl | rfl | rfl | rfl | rfl | rfl | rfl | rfl <;>
      exact ⟨_, _, rfl, by decide⟩
  obtain ⟨key, kind, rfl, hkey⟩ := hkeyword
  refine ⟨key, hkey, fun c hc => ?_⟩
  simpa [Rule.keyword] using hc

theorem console_rules : console.rules =
    CommentStyle.slashes.rules ++ RuleSet.orderByKey (punctuation ++ reservedWords) ++ literals :=
  rfl

theorem select_eq_literals {c : Cursor} (hsymbol : c.current ∉ symbols)
    (hreserved : ∀ key ∈ reserved, c.startsWith key → isWordChar (c.lookahead key.length)) :
    console.select c = literals.find? fun (r : Rule Kind) => r.applies c := by
  have hnone : (CommentStyle.slashes.rules ++
      RuleSet.orderByKey (punctuation ++ reservedWords)).find?
        (fun (r : Rule Kind) => r.applies c) = none := by
    refine List.find?_eq_none.mpr fun r hr happlies => ?_
    have hr : r ∈ CommentStyle.slashes.rules ++ punctuation ∨ r ∈ reservedWords := by
      simpa only [List.mem_append, (RuleSet.orderByKey_perm _).mem_iff, or_assoc] using hr
    rcases hr with hr | hr
    · obtain ⟨key, hkey, hstands⟩ := applies_symbol hr
      have hstarts := hstands c happlies
      rw [startsWith_eq_false hsymbol hkey] at hstarts
      cases hstarts
    · obtain ⟨key, hkey, hstands⟩ := applies_reservedWord hr
      obtain ⟨hstarts, hend⟩ := hstands c happlies
      have hword := hreserved key hkey hstarts
      rw [hend] at hword
      cases hword
  rw [RuleSet.select, console_rules, List.find?_append, hnone, Option.none_or]

/-! ### Classes of characters -/

theorem inRanges_iff (ranges : List (Nat × Nat)) (x : Char) :
    inRanges ranges x = true ↔ ∃ r ∈ ranges, r.1 ≤ x.toNat ∧ x.toNat ≤ r.2 := by
  simp [inRanges]

theorem inRanges_disjoint {a b : List (Nat × Nat)}
    (h : (a.all fun r => b.all fun s => r.2 < s.1 || s.2 < r.1) = true) {x : Char}
    (hx : inRanges a x = true) : inRanges b x = false := by
  rw [Bool.eq_false_iff]
  intro hx'
  obtain ⟨r, hr, hle, hge⟩ := (inRanges_iff a x).mp hx
  obtain ⟨s, hs, hle', hge'⟩ := (inRanges_iff b x).mp hx'
  have hrs := List.all_eq_true.mp (List.all_eq_true.mp h r hr) s hs
  simp only [Bool.or_eq_true, decide_eq_true_eq] at hrs
  omega

theorem isAlpha_iff (x : Char) : x.isAlpha = true ↔
    (65 ≤ x.toNat ∧ x.toNat ≤ 90) ∨ (97 ≤ x.toNat ∧ x.toNat ≤ 122) := by
  simp [Char.isAlpha, Char.isUpper, Char.isLower, UInt32.le_iff_toNat_le]

theorem isWordChar_of_isDigit {x : Char} (hx : x.isDigit = true) : isWordChar x = true := by
  have hascii : x.toNat < 0x80 := by
    have hrange : 48 ≤ x.toNat ∧ x.toNat ≤ 57 := Char.isDigit_iff_toNat.mp hx
    omega
  simp [isWordChar, isAlphanumeric, isNumeric, hascii, hx]

theorem isDigit_eq_false {x : Char} (hx : isAlphabetic x = true) : x.isDigit = false := by
  rw [Bool.eq_false_iff]
  intro hdigit
  have hrange : 48 ≤ x.toNat ∧ x.toNat ≤ 57 := Char.isDigit_iff_toNat.mp hdigit
  have hascii : x.toNat < 0x80 := by omega
  rw [isAlphabetic, if_pos hascii, isAlpha_iff] at hx
  omega

/-- White space stands between words and never inside one. -/
theorem isBlank_eq_false {x : Char} (hx : isWordChar x = true) : isBlank x = false := by
  rw [Bool.eq_false_iff]
  intro hblank
  have halpha : inRanges alphabeticRanges x = false := inRanges_disjoint (by decide +kernel) hblank
  have hnumeric : inRanges numericRanges x = false := inRanges_disjoint (by decide +kernel) hblank
  have hword : x.isAlpha = true ∨ x.isDigit = true ∨ x = '_' := by
    simp only [isWordChar, isAlphanumeric, isAlphabetic, isNumeric, halpha, hnumeric,
      Bool.or_eq_true, beq_iff_eq] at hx
    rcases hx with (hx | hx) | hx
    · split at hx
      · exact .inl hx
      · cases hx
    · split at hx
      · exact .inr (.inl hx)
      · cases hx
    · exact .inr (.inr hx)
  simp only [isBlank, inRanges_iff, blankRanges, List.mem_cons, List.not_mem_nil, or_false,
    exists_eq_or_imp, exists_eq_left] at hblank
  rcases hword with hx | hx | rfl
  · have hrange := (isAlpha_iff x).mp hx
    omega
  · have hrange : 48 ≤ x.toNat ∧ x.toNat ≤ 57 := Char.isDigit_iff_toNat.mp hx
    omega
  · exact absurd hblank (by decide)

/-! ### Names -/

theorem WordEnd.head {tail : List Char} (h : WordEnd tail) : ∀ x ∈ tail.head?, x = ' ' := by
  rcases h with rfl | ⟨rest, rfl⟩
  · simp
  · simp

theorem run_eq {c : Cursor} {p : Char → Bool} {chars tail : List Char}
    (hrest : c.rest = chars ++ tail) (hchars : ∀ x ∈ chars, p x = true)
    (htail : ∀ x ∈ tail.head?, p x = false) : c.run p = chars := by
  have hstop : tail.takeWhile p = [] := by
    cases tail with
    | nil => rfl
    | cons x rest => exact List.takeWhile_cons_of_neg (by simp [htail x rfl])
  rw [Cursor.run, hrest, List.takeWhile_append_of_pos hchars, hstop, List.append_nil]

theorem passes_of_run {c : Cursor} {p : Char → Bool} {chars : List Char} (h : c.run p = chars) :
    c.Passes chars (c.skipWhile p) :=
  h ▸ c.passes_skipWhile p

theorem current_eq {c : Cursor} {x : Char} {xs : List Char} (h : c.rest = x :: xs) :
    c.current = x := by
  simp [Cursor.current, Cursor.lookahead, h]

theorem step_valued {c after : Cursor} {applies : Cursor → Bool} {read : Scan Literal}
    {kind : Literal → Kind} {value : Literal} {x : Char} {xs : List Char} (hrest : c.rest = x :: xs)
    (hblank : isBlank x = false)
    (hselect : console.select c = some (Rule.valued applies read kind))
    (hread : read c = .ok value after) :
    console.step c = .token ⟨kind value, some value, c.line⟩ after := by
  have hrun : (Rule.valued applies read kind).run c =
      .ok (.token ⟨kind value, some value, c.line⟩) after := by
    have hlexeme : (Rule.valued applies read kind).read c =
        .ok (.token ⟨kind value, some value, c.line⟩) after :=
      bind_of_ok (f := fun value => pure (Lexeme.token (Token.withValue (kind value) value c.line)))
        hread
    rw [Rule.run, bind_of_ok hlexeme]
    rfl
  have hend : c.atEnd = false := by simp [Cursor.atEnd, hrest]
  simp only [RuleSet.step, hend, current_eq hrest, hblank, hselect, hrun, Bool.false_eq_true,
    ↓reduceIte]

theorem not_mem_symbols {x : Char} (hx : isWordChar x = true) : x ∉ symbols := by
  intro hmem
  have hall : symbols.any isWordChar = false := by decide
  exact List.any_eq_false.mp hall x hmem hx

/-- A reserved word that stands where a name does goes on as the name. -/
theorem isWordChar_lookahead {c : Cursor} {chars tail : List Char} (h : Stands chars c tail)
    (hword : ∀ x ∈ chars, isWordChar x = true) {key : String} (hkey : key ∈ reserved)
    (hne : chars ≠ key.toList) (hstarts : c.startsWith key = true) :
    isWordChar (c.lookahead key.length) = true := by
  obtain ⟨rest, hrest⟩ := Cursor.rest_of_startsWith hstarts
  have hlookahead : c.lookahead key.length = rest.getD 0 Cursor.endMark := by
    simp [Cursor.lookahead, hrest, List.getD_eq_getElem?_getD, ← String.length_toList,
      List.getElem?_append_right]
  rw [hlookahead]
  rcases List.append_eq_append_iff.mp (hrest.symm.trans h.rest) with
    ⟨more, rfl, rfl⟩ | ⟨more, hmore, htail⟩
  · cases more with
    | nil => exact absurd (List.append_nil _) hne
    | cons x more => exact hword x (by simp)
  · cases more with
    | nil => exact absurd (hmore.trans (List.append_nil _)).symm hne
    | cons x more =>
      -- The space behind the name would be a part of the reserved word.
      have hx : x = ' ' := h.wordEnd.head x (by simp [htail])
      have hall : ∀ key ∈ reserved, key.toList.all isWordChar = true := by decide
      have hspace := List.all_eq_true.mp (hall key hkey) x (by simp [hmore])
      rw [hx] at hspace
      exact absurd hspace (by decide)

theorem startsIdentifier_iff {c : Cursor} {x : Char} {xs : List Char} (h : c.rest = x :: xs) :
    startsIdentifier c = true ↔
      isAlphabetic x = true ∨ x = '_' ∧ ∃ y ∈ xs.head?, isAlphabetic y = true := by
  have hnext : c.lookahead 1 = xs.head?.getD Cursor.endMark := by
    simp [Cursor.lookahead, h, List.getD_eq_getElem?_getD, List.head?_eq_getElem?]
  simp only [startsIdentifier, current_eq h, hnext, Bool.or_eq_true, Bool.and_eq_true, beq_iff_eq]
  refine or_congr_right (and_congr_right fun _ => ?_)
  cases xs with
  | nil => exact iff_of_false (by decide) (by simp)
  | cons y ys => simp

theorem startsNumber_eq_false {c : Cursor} {x : Char} {xs : List Char} (h : c.rest = x :: xs)
    (hx : isAlphabetic x = true ∨ x = '_') : startsNumber c = false := by
  have hdigit : x.isDigit = false := by
    rcases hx with hx | rfl
    · exact isDigit_eq_false hx
    · decide
  have hpoint : x ≠ '.' := by
    rintro rfl
    rcases hx with hx | hx
    · exact absurd hx (by decide)
    · cases hx
  simp [startsNumber, current_eq h, hdigit, hpoint]

theorem step_name (n : Name) {c : Cursor} {tail : List Char} (h : Stands n.text.toList c tail) :
    ∃ after, console.step c = .token ⟨.identifier, some (.text n.text), c.line⟩ after ∧
      c.Passes n.text.toList after := by
  obtain ⟨text, hvalid⟩ := n
  simp only at h ⊢
  simp only [isName, Bool.and_eq_true, Bool.not_eq_true'] at hvalid
  obtain ⟨⟨hstarts, hall⟩, hreserved⟩ := hvalid
  have hword := List.all_eq_true.mp hall
  cases hchars : text.toList with
  | nil =>
    simp only [startsIdentifier, Cursor.start, Cursor.current, Cursor.lookahead, hchars] at hstarts
    exact absurd hstarts (by decide)
  | cons x xs =>
    have hrest : c.rest = x :: (xs ++ tail) := by rw [h.rest, hchars, List.cons_append]
    have hx : isWordChar x = true := hword x (by simp [hchars])
    have hiff := startsIdentifier_iff (c := Cursor.start text) hchars
    rw [hiff] at hstarts
    have hidentifier : startsIdentifier c = true := by
      rw [startsIdentifier_iff hrest]
      refine hstarts.imp_right (And.imp_right ?_)
      rintro ⟨y, hy, halpha⟩
      refine ⟨y, ?_, halpha⟩
      cases xs with
      | nil => cases hy
      | cons => exact hy
    have hnumber := startsNumber_eq_false hrest (hstarts.imp_right And.left)
    have hselect : console.select c = some (.valued startsIdentifier
        (Literal.text <$> Scan.readIdentifier) fun _ => .identifier) := by
      rw [select_eq_literals]
      · rw [literals, List.find?_cons_of_neg (by simp [Rule.valued, Rule.keyless, hnumber]),
          List.find?_cons_of_pos (by simp [Rule.valued, Rule.keyless, hidentifier])]
      · rw [current_eq hrest]
        exact not_mem_symbols hx
      · intro key hkey
        refine isWordChar_lookahead h hword hkey fun heq => ?_
        rw [String.toList_inj.mp heq, ← Bool.not_eq_true, List.contains_iff_mem] at hreserved
        exact hreserved hkey
    have hrun := run_eq h.rest hword fun y hy => by rw [h.wordEnd.head y hy]; decide
    refine ⟨c.skipWhile isWordChar, ?_, hchars ▸ passes_of_run hrun⟩
    refine step_valued hrest (isBlank_eq_false hx) hselect ?_
    have hread : Scan.readIdentifier c = .ok text (c.skipWhile isWordChar) := by
      change EStateM.Result.ok (String.ofList (c.run isWordChar)) _ = _
      rw [hrun, String.ofList_toList]
    exact bind_of_ok (f := fun text => pure (Literal.text text)) hread

/-! ### Numbers -/

theorem select_eq_literals_of_head {c : Cursor} {x : Char} {xs : List Char} (h : c.rest = x :: xs)
    (hsymbol : x ∉ symbols) (hreserved : ∀ key ∈ reserved, key.toList.head? ≠ some x) :
    console.select c = literals.find? fun (r : Rule Kind) => r.applies c := by
  refine select_eq_literals (by rwa [current_eq h]) fun key hkey hstarts => ?_
  obtain ⟨rest, hrest⟩ := Cursor.rest_of_startsWith hstarts
  have hne : ∀ key ∈ reserved, key.toList ≠ [] := by decide
  cases hchars : key.toList with
  | nil => exact absurd hchars (hne key hkey)
  | cons y ys =>
    rw [hchars, h] at hrest
    cases hrest
    exact absurd (by rw [hchars]; rfl) (hreserved key hkey)

theorem readDigits_eq {c : Cursor} {digits tail : List Char} (hrest : c.rest = digits ++ tail)
    (hdigits : ∀ x ∈ digits, x.isDigit = true)
    (htail : ∀ x ∈ tail.head?, (x.isDigit || x == '_') = false) :
    ∃ after, Scan.readDigits c = .ok digits after ∧ c.Passes digits after := by
  have hrun : c.run (fun x => x.isDigit || x == '_') = digits :=
    run_eq hrest (fun x hx => by simp [hdigits x hx]) htail
  refine ⟨_, ?_, passes_of_run hrun⟩
  change EStateM.Result.ok ((c.run fun x => x.isDigit || x == '_').filter (· ≠ '_')) _ = _
  have hfilter : digits.filter (· ≠ '_') = digits := by
    refine List.filter_eq_self.mpr fun x hx => ?_
    have hdigit := hdigits x hx
    simp only [ne_eq, decide_not, Bool.not_eq_true', decide_eq_false_iff_not]
    rintro rfl
    exact absurd hdigit (by decide)
  rw [hrun, hfilter]

theorem current_of_wordEnd {c : Cursor} (h : WordEnd c.rest) :
    c.current = ' ' ∨ c.current = Cursor.endMark := by
  rcases h with h | ⟨rest, h⟩
  · exact .inr (by simp [Cursor.current, Cursor.lookahead, h])
  · exact .inl (current_eq h)

theorem readFloatSuffix_of_wordEnd {c : Cursor} (h : WordEnd c.rest) :
    Scan.readFloatSuffix c = .ok false c := by
  have hcurrent : (c.current = 'f' || c.current = 'F') = false := by
    rcases current_of_wordEnd h with h | h <;> rw [h] <;> decide
  rw [Scan.readFloatSuffix, get_bind, if_neg (by simp [hcurrent])]
  rfl

theorem readFraction_of_wordEnd {c : Cursor} (h : WordEnd c.rest) :
    Scan.readFraction c = .ok none c := by
  have hcurrent : c.current ≠ '.' := by
    rcases current_of_wordEnd h with h | h <;> rw [h] <;> decide
  rw [Scan.readFraction, get_bind, if_neg hcurrent]
  rfl

theorem readFraction_eq {c : Cursor} {digits tail : List Char}
    (hrest : c.rest = '.' :: digits ++ tail) (hdigits : ∀ x ∈ digits, x.isDigit = true)
    (hwordEnd : WordEnd tail) :
    ∃ after, Scan.readFraction c = .ok (some digits) after ∧ c.Passes ('.' :: digits) after := by
  have hcurrent : c.current = '.' := current_eq hrest
  have hpasses : c.Passes ['.'] c.advance := by
    have h := c.passes_advance
    rwa [hrest] at h
  have hafter : c.advance.rest = digits ++ tail := hpasses.rest_eq hrest
  obtain ⟨after, hread, hdigits'⟩ := readDigits_eq hafter hdigits fun x hx => by
    rw [hwordEnd.head x hx]
    decide
  refine ⟨after, ?_, hpasses.trans hdigits'⟩
  rw [Scan.readFraction, get_bind, if_pos hcurrent]
  exact bind_of_ok (x := Scan.readDigits) (f := fun digits => pure (some digits)) hread

theorem select_number {c : Cursor} {x : Char} {xs : List Char} (h : c.rest = x :: xs)
    (hx : x.isDigit = true) :
    console.select c = some (.valued startsNumber Scan.readNumber Kind.ofNumber) := by
  have hreserved : ∀ key ∈ reserved, key.toList.head?.any Char.isDigit = false := by decide
  rw [select_eq_literals_of_head h (not_mem_symbols (isWordChar_of_isDigit hx)), literals,
    List.find?_cons_of_pos]
  · simp [Rule.valued, Rule.keyless, startsNumber, current_eq h, hx]
  · intro key hkey hhead
    have hnone := hreserved key hkey
    rw [hhead, Option.any_some, hx] at hnone
    cases hnone

theorem integer?_toDigits (n : Int64) (nonneg : 0 ≤ n.toInt) :
    Scan.integer? (Nat.toDigits 10 n.toInt.toNat) = some n := by
  have hvalue : Decimal.digitsValue (Nat.toDigits 10 n.toInt.toNat) = n.toInt.toNat := by
    rw [Decimal.digitsValue, ← Nat.ofDigitChars_eq_foldl, Nat.ofDigitChars_ten_toDigits]
  have hcast : ((n.toInt.toNat : Nat) : Int) = n.toInt := Int.toNat_of_nonneg nonneg
  rw [Scan.integer?, if_neg (by simp [Nat.toDigits_ne_nil]), hvalue, int64?, hcast,
    if_pos ⟨n.minValue_le_toInt, n.toInt_le⟩, Int64.ofInt_toInt]

theorem readNumber_integer {c : Cursor} {n : Int64} (nonneg : 0 ≤ n.toInt) {tail : List Char}
    (h : Stands (Nat.toDigits 10 n.toInt.toNat) c tail) :
    ∃ after, Scan.readNumber c = .ok (.int n) after ∧
      c.Passes (Nat.toDigits 10 n.toInt.toNat) after := by
  have hdigits : ∀ x ∈ Nat.toDigits 10 n.toInt.toNat, x.isDigit = true :=
    fun x hx => Nat.isDigit_of_mem_toDigits (by decide) (by decide) hx
  obtain ⟨after, hread, hpasses⟩ := readDigits_eq h.rest hdigits fun x hx => by
    rw [h.wordEnd.head x hx]
    decide
  have hwordEnd : WordEnd after.rest := (hpasses.rest_eq h.rest).symm ▸ h.wordEnd
  refine ⟨after, ?_, hpasses⟩
  rw [Scan.readNumber, get_bind]
  dsimp only
  rw [bind_of_ok hread, bind_of_ok (readFraction_of_wordEnd hwordEnd),
    bind_of_ok (readFloatSuffix_of_wordEnd hwordEnd), integer?_toDigits n nonneg]
  rfl

theorem readNumber_float {c : Cursor} (whole fraction : Digits) {tail : List Char}
    (h : Stands (whole.chars ++ '.' :: fraction.chars) c tail) :
    ∃ after, Scan.readNumber c = .ok (.float (whole.toFloat fraction)) after ∧
      c.Passes (whole.chars ++ '.' :: fraction.chars) after := by
  have hrest : c.rest = whole.chars ++ ('.' :: fraction.chars ++ tail) := by simp [h.rest]
  obtain ⟨c₁, hread, hpasses⟩ := readDigits_eq hrest (List.all_eq_true.mp whole.digits)
    fun x hx => by cases hx; decide
  have hrest₁ : c₁.rest = '.' :: fraction.chars ++ tail := hpasses.rest_eq hrest
  obtain ⟨after, hread', hpasses'⟩ :=
    readFraction_eq hrest₁ (List.all_eq_true.mp fraction.digits) h.wordEnd
  have hwordEnd : WordEnd after.rest := (hpasses'.rest_eq hrest₁).symm ▸ h.wordEnd
  refine ⟨after, ?_, hpasses.trans hpasses'⟩
  rw [Scan.readNumber, get_bind]
  dsimp only
  rw [bind_of_ok hread, bind_of_ok hread', bind_of_ok (readFloatSuffix_of_wordEnd hwordEnd)]
  simp only [Option.isSome_some, Bool.or_true, ↓reduceIte, Option.getD_some]
  have hvalue : Decimal.ofDigits? whole.chars fraction.chars = some (whole.toFloat fraction) :=
    (Option.some_get _).symm
  rw [hvalue]
  rfl

/-! ### Strings -/

theorem unquote_cons {x : Char} {rest : List Char} (taken : List Char) (width : Nat)
    (hx : x ≠ '"') (hrest : x = '\\' → rest.head? ≠ some '"') :
    Scan.unquote taken width (x :: rest) = Scan.unquote (x :: taken) (width + 1) rest := by
  rw [Scan.unquote]
  · exact hx
  · rintro behind hbackslash rfl
    exact hrest hbackslash rfl

theorem unquote_escape {s : List Char} (hlast : s.getLast? ≠ some '\\') (tail : List Char)
    (taken : List Char) (width : Nat) :
    Scan.unquote taken width (s.flatMap Constant.escape ++ '"' :: tail) =
      some (taken.reverse ++ s, width + (s.flatMap Constant.escape).length + 1) := by
  induction s generalizing taken width with
  | nil => simp [Scan.unquote]
  | cons x s ih =>
    have hlast' : s.getLast? ≠ some '\\' := by
      cases s with
      | nil => simp
      | cons y s => simpa [List.getLast?_cons_cons] using hlast
    by_cases hquote : x = '"'
    · subst hquote
      have hstep := ih hlast' ('"' :: taken) (width + 2)
      simp only [List.flatMap_cons, Constant.escape, ↓reduceIte, List.cons_append, List.nil_append,
        Scan.unquote, List.length_cons]
      rw [hstep]
      simp
      omega
    · -- The quote behind a backslash would be escaped by it, but every quote here has its own.
      have hnext : x = '\\' → (s.flatMap Constant.escape ++ '"' :: tail).head? ≠ some '"' := by
        rintro rfl
        cases s with
        | nil => exact absurd rfl hlast
        | cons y s =>
          by_cases hy : y = '"'
          · simp [Constant.escape, hy]
          · simp [Constant.escape, hy]
      have hstep := ih hlast' (x :: taken) (width + 1)
      simp only [List.flatMap_cons, Constant.escape, hquote, ↓reduceIte, List.cons_append,
        List.nil_append, List.length_cons]
      rw [unquote_cons taken width hquote hnext, hstep]
      simp
      omega

theorem readString_eq {c : Cursor} {s : String} (hlast : s.toList.getLast? ≠ some '\\')
    {tail : List Char} (h : c.rest = ('"' :: s.toList.flatMap Constant.escape ++ ['"']) ++ tail) :
    ∃ after, Scan.readString c = .ok s after ∧
      c.Passes ('"' :: s.toList.flatMap Constant.escape ++ ['"']) after := by
  have hopened : c.Passes ['"'] c.advance := by
    have hpasses := c.passes_advance
    rwa [h] at hpasses
  have hrest : c.advance.rest = s.toList.flatMap Constant.escape ++ '"' :: tail :=
    hopened.rest_eq (by simp [h])
  have hclosed := c.advance.passes_advanceBy ((s.toList.flatMap Constant.escape).length + 1)
  refine ⟨c.advance.advanceBy ((s.toList.flatMap Constant.escape).length + 1), ?_, ?_⟩
  · rw [Scan.readString, hrest, unquote_escape hlast]
    simp only [List.reverse_nil, List.nil_append, Nat.zero_add, String.ofList_toList]
  · have htake : c.advance.rest.take ((s.toList.flatMap Constant.escape).length + 1) =
        s.toList.flatMap Constant.escape ++ ['"'] := by
      rw [hrest, List.take_length_add_append]
      rfl
    rw [htake] at hclosed
    exact hopened.trans hclosed

theorem step_string {s : String} (hlast : s.toList.getLast? ≠ some '\\') {c : Cursor}
    {tail : List Char} (h : Stands ('"' :: s.toList.flatMap Constant.escape ++ ['"']) c tail) :
    ∃ after, console.step c = .token ⟨.string, some (.text s), c.line⟩ after ∧
      c.Passes ('"' :: s.toList.flatMap Constant.escape ++ ['"']) after := by
  obtain ⟨after, hread, hpasses⟩ := readString_eq hlast h.rest
  refine ⟨after, ?_, hpasses⟩
  have hrest := h.rest
  have hselect : console.select c = some (.valued startsString
      (Literal.text <$> Scan.readString) fun _ => .string) := by
    have hcurrent : c.current = '"' := current_eq hrest
    rw [select_eq_literals_of_head hrest (by decide) (by decide), literals,
      List.find?_cons_of_neg, List.find?_cons_of_neg, List.find?_cons_of_pos]
    · simp [Rule.valued, Rule.keyless, startsString, hcurrent]
    · have hquote : isAlphabetic '"' = false := by decide
      simp [Rule.valued, Rule.keyless, startsIdentifier, hcurrent, hquote]
    · have hquote : '"'.isDigit = false := by decide
      simp [Rule.valued, Rule.keyless, startsNumber, hcurrent, hquote]
  exact step_valued hrest (by decide) hselect
    (bind_of_ok (f := fun text => pure (Literal.text text)) hread)

/-! ### Words -/

theorem step_constant (k : Constant) {c : Cursor} {tail : List Char}
    (h : Stands k.text.toList c tail) :
    ∃ after, console.step c = .token ⟨k.kind, k.literal?, c.line⟩ after ∧
      c.Passes k.text.toList after := by
  cases k with
  | null =>
    obtain ⟨position, line, rest⟩ := c
    obtain ⟨hrest, hwordEnd⟩ := h
    cases hrest
    rcases hwordEnd with rfl | ⟨rest, rfl⟩ <;> exact ⟨_, rfl, rfl, rfl⟩
  | bool b =>
    obtain ⟨position, line, rest⟩ := c
    obtain ⟨hrest, hwordEnd⟩ := h
    cases hrest
    rcases hwordEnd with rfl | ⟨rest, rfl⟩ <;> cases b <;> exact ⟨_, rfl, rfl, rfl⟩
  | int n nonneg =>
    simp only [Constant.text, String.toList_ofList] at h ⊢
    obtain ⟨after, hread, hpasses⟩ := readNumber_integer nonneg h
    obtain ⟨x, xs, hchars⟩ := List.exists_cons_of_ne_nil
      (Nat.toDigits_ne_nil : Nat.toDigits 10 n.toInt.toNat ≠ [])
    have hx : x.isDigit = true := Nat.isDigit_of_mem_toDigits (b := 10) (n := n.toInt.toNat)
      (by decide) (by decide) (hchars ▸ List.mem_cons_self)
    have hrest : c.rest = x :: (xs ++ tail) := by rw [h.rest, hchars, List.cons_append]
    exact ⟨after, step_valued hrest (isBlank_eq_false (isWordChar_of_isDigit hx))
      (select_number hrest hx) hread, hpasses⟩
  | float whole fraction =>
    simp only [Constant.text, String.toList_ofList] at h ⊢
    obtain ⟨after, hread, hpasses⟩ := readNumber_float whole fraction h
    obtain ⟨x, xs, hchars⟩ := List.exists_cons_of_ne_nil whole.ne_nil
    have hx : x.isDigit = true := List.all_eq_true.mp whole.digits x (by simp [hchars])
    have hrest : c.rest = x :: (xs ++ '.' :: fraction.chars ++ tail) := by
      rw [h.rest, hchars]
      simp
    exact ⟨after, step_valued hrest (isBlank_eq_false (isWordChar_of_isDigit hx))
      (select_number hrest hx) hread, hpasses⟩
  | string s hlast =>
    simp only [Constant.text, String.toList_ofList] at h ⊢
    exact step_string hlast h

/-- A word is read as its token, on the line on which it starts. -/
theorem step_word (w : Word) {c : Cursor} {tail : List Char} (h : Stands w.text.toList c tail) :
    ∃ after, console.step c = .token (w.token c.line) after ∧ c.Passes w.text.toList after := by
  cases w with
  | mark m => exact step_mark m h
  | name n => exact step_name n h
  | constant k => exact step_constant k h

end ConsoleScript.Printing
