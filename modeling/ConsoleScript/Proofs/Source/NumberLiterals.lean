import Mathlib
import ConsoleScript.Proofs.Decimal.Floats
import ConsoleScript.Proofs.Source.Movement
import ConsoleScript.Proofs.Token.Lexemes

/-!
# Numbers as they are written

A numeral is a run of digits and underscores, then perhaps a point and another such run, and then
perhaps the suffix of floats. Every text begins with a numeral, all parts of which may be missing,
and with only one whose parts are as long as they can be. The reader takes that one. The point and
the suffix, and nothing else, make it a float, so that only the numerals of large integers are
malformed. A float is the one nearest to the number that is written.
-/

namespace ConsoleScript

open Vocabulary

@[ext] structure Numeral where
  whole : List Char
  fraction : Option (List Char)
  mark : Option Char
  whole_digital : ∀ x ∈ whole, isDigital x
  fraction_digital : ∀ chars ∈ fraction, ∀ x ∈ chars, isDigital x
  mark_suffix : ∀ x ∈ mark, isFloatSuffix x

namespace Numeral

/-- The point and what is behind it. -/
def pointed (n : Numeral) : List Char :=
  n.fraction.elim [] ('.' :: ·)

def chars (n : Numeral) : List Char :=
  n.whole ++ n.pointed ++ n.mark.toList

def isFloat (n : Numeral) : Bool :=
  n.mark.isSome || n.fraction.isSome

/-- The natural that the digits before the point spell. -/
def magnitude (n : Numeral) : Nat :=
  Nat.ofDigitChars 10 (digitsOf n.whole) 0

/-- The number that is written. Each digit behind the point counts a tenth of the one before. -/
def value (n : Numeral) : ℚ :=
  n.magnitude + Nat.ofDigitChars 10 (digitsOf (n.fraction.getD [])) 0 /
    10 ^ (digitsOf (n.fraction.getD [])).length

/-- The text begins with the numeral, and no part of it can be longer or be added to it. -/
structure Heads (n : Numeral) (text rest : List Char) : Prop where
  text : text = n.chars ++ rest
  digits : Stops isDigital (n.mark.toList ++ rest)
  point : n.fraction = none → Stops (· == '.') (n.mark.toList ++ rest)
  mark : n.mark = none → Stops isFloatSuffix rest

/-- From the first cursor, which is on the numeral, the reader comes to the second. It gives the
integer if that has 64 bits, and always gives the nearest float. -/
structure ReadBetween (n : Numeral) (c after : Cursor) : Prop where
  integer : n.isFloat = false → n.magnitude ≤ 2 ^ 63 - 1 →
    ∃ i : Int64, i.toInt = n.magnitude ∧ Scan.readNumber c = .ok (.int i) after
  malformed : n.isFloat = false → 2 ^ 63 - 1 < n.magnitude →
    Scan.readNumber c =
      .error (.malformedNumber (String.ofList (digitsOf n.whole)) c.line) after
  float : n.isFloat = true →
    ∃ x, Decimal.ofDigits? (digitsOf n.whole) (digitsOf (n.fraction.getD [])) = some x ∧
      (∀ y, Decimal.IsNearest y n.value ↔ y = x) ∧ Scan.readNumber c = .ok (.float x) after

/-! ### The numeral at the head of a text -/

theorem exists_mark (text : List Char) :
    ∃ (mark : Option Char) (rest : List Char), text = mark.toList ++ rest ∧
      (∀ x ∈ mark, isFloatSuffix x) ∧ (mark = none → Stops isFloatSuffix rest) := by
  by_cases hstop : Stops isFloatSuffix text
  · exact ⟨none, text, rfl, by simp, fun _ => hstop⟩
  · simp only [Stops, not_forall, Bool.not_eq_false] at hstop
    obtain ⟨x, hx, hsuffix⟩ := hstop
    obtain ⟨rest, rfl⟩ := List.head?_eq_some_iff.mp hx
    exact ⟨some x, rest, rfl, by simpa using hsuffix, by simp⟩

theorem stops_dropWhile (p : Char → Bool) (text : List Char) : Stops p (text.dropWhile p) := by
  have hstops := stops_skipWhile p ⟨0, 1, text⟩
  rwa [Cursor.rest_skipWhile] at hstops

theorem exists_fraction {text : List Char} (hstop : Stops isDigital text) :
    ∃ (fraction : Option (List Char)) (rest : List Char),
      text = fraction.elim [] ('.' :: ·) ++ rest ∧
      (∀ chars ∈ fraction, ∀ x ∈ chars, isDigital x) ∧ Stops isDigital rest ∧
      (fraction = none → Stops (· == '.') rest) := by
  by_cases hpoint : Stops (· == '.') text
  · exact ⟨none, text, rfl, by simp, hstop, fun _ => hpoint⟩
  · simp only [Stops, not_forall, Bool.not_eq_false, beq_iff_eq] at hpoint
    obtain ⟨x, hx, rfl⟩ := hpoint
    obtain ⟨behind, rfl⟩ := List.head?_eq_some_iff.mp hx
    refine ⟨some (behind.takeWhile isDigital), behind.dropWhile isDigital, ?_, ?_,
      stops_dropWhile _ _, by simp⟩
    · simp
    · rintro chars ⟨⟩ x hx
      exact List.mem_takeWhile_imp hx

theorem exists_heads (text : List Char) :
    ∃ (n : Numeral) (rest : List Char), n.Heads text rest := by
  obtain ⟨fraction, behind, hbehind, hfraction, hdigits, hpoint⟩ :=
    exists_fraction (stops_dropWhile isDigital text)
  obtain ⟨mark, rest, rfl, hsuffix, hmark⟩ := exists_mark behind
  have hwhole : ∀ x ∈ text.takeWhile isDigital, isDigital x := fun x => List.mem_takeWhile_imp
  refine ⟨⟨text.takeWhile isDigital, fraction, mark, hwhole, hfraction, hsuffix⟩, rest, ?_, hdigits,
    hpoint, hmark⟩
  simp only [chars, pointed, List.append_assoc]
  rw [← hbehind, List.takeWhile_append_dropWhile]

variable {n : Numeral} {c : Cursor} {text rest : List Char}

theorem Heads.rest_eq (h : n.Heads text rest) :
    text = n.whole ++ (n.pointed ++ (n.mark.toList ++ rest)) := by
  simpa [chars] using h.text

theorem Heads.stops_whole (h : n.Heads text rest) :
    Stops isDigital (n.pointed ++ (n.mark.toList ++ rest)) := by
  cases hfraction : n.fraction with
  | none =>
    rw [pointed, hfraction]
    exact h.digits
  | some chars =>
    rw [pointed, hfraction]
    rintro x ⟨⟩
    decide

theorem run_unique {p : Char → Bool} {chars chars' tail tail' : List Char}
    (h : chars ++ tail = chars' ++ tail') (hchars : ∀ x ∈ chars, p x) (htail : Stops p tail)
    (hchars' : ∀ x ∈ chars', p x) (htail' : Stops p tail') : chars = chars' ∧ tail = tail' := by
  have hrun := Printing.run_eq (c := ⟨0, 1, chars ++ tail⟩) rfl hchars htail
  have hrun' := Printing.run_eq (c := ⟨0, 1, chars ++ tail⟩) h hchars' htail'
  obtain rfl := hrun.symm.trans hrun'
  exact ⟨rfl, List.append_cancel_left h⟩

theorem Heads.fraction_unique {n' : Numeral} {rest' : List Char} (h : n.Heads text rest)
    (h' : n'.Heads text rest')
    (heq : n.pointed ++ (n.mark.toList ++ rest) = n'.pointed ++ (n'.mark.toList ++ rest')) :
    n.fraction = n'.fraction ∧ n.mark.toList ++ rest = n'.mark.toList ++ rest' := by
  cases hfraction : n.fraction with
  | none =>
    cases hfraction' : n'.fraction with
    | none => exact ⟨rfl, by simpa [pointed, hfraction, hfraction'] using heq⟩
    | some chars' =>
      have htail : n.mark.toList ++ rest = '.' :: (chars' ++ (n'.mark.toList ++ rest')) := by
        simpa [pointed, hfraction, hfraction'] using heq
      cases h.point hfraction '.' (by rw [htail]; rfl)
  | some chars =>
    cases hfraction' : n'.fraction with
    | none =>
      have htail : '.' :: (chars ++ (n.mark.toList ++ rest)) = n'.mark.toList ++ rest' := by
        simpa [pointed, hfraction, hfraction'] using heq
      cases h'.point hfraction' '.' (by rw [← htail]; rfl)
    | some chars' =>
      have hchars : chars ++ (n.mark.toList ++ rest) = chars' ++ (n'.mark.toList ++ rest') := by
        simpa [pointed, hfraction, hfraction'] using heq
      obtain ⟨rfl, htail⟩ := run_unique hchars (n.fraction_digital chars hfraction) h.digits
        (n'.fraction_digital chars' hfraction') h'.digits
      exact ⟨rfl, htail⟩

theorem Heads.mark_unique {n' : Numeral} {rest' : List Char} (h : n.Heads text rest)
    (h' : n'.Heads text rest') (heq : n.mark.toList ++ rest = n'.mark.toList ++ rest') :
    n.mark = n'.mark ∧ rest = rest' := by
  cases hmark : n.mark with
  | none =>
    cases hmark' : n'.mark with
    | none => exact ⟨rfl, by simpa [hmark, hmark'] using heq⟩
    | some x' =>
      have hrest : rest = x' :: rest' := by simpa [hmark, hmark'] using heq
      have hstops := h.mark hmark x' (by rw [hrest]; rfl)
      rw [n'.mark_suffix x' hmark'] at hstops
      cases hstops
  | some x =>
    cases hmark' : n'.mark with
    | none =>
      have hrest : x :: rest = rest' := by simpa [hmark, hmark'] using heq
      have hstops := h'.mark hmark' x (by rw [← hrest]; rfl)
      rw [n.mark_suffix x hmark] at hstops
      cases hstops
    | some x' =>
      have hcons : x :: rest = x' :: rest' := by simpa [hmark, hmark'] using heq
      cases hcons
      exact ⟨rfl, rfl⟩

/-- There is only one numeral with which a text begins. -/
theorem Heads.unique {n' : Numeral} {rest' : List Char} (h : n.Heads text rest)
    (h' : n'.Heads text rest') : n = n' ∧ rest = rest' := by
  obtain ⟨hwhole, htail⟩ := run_unique (h.rest_eq.symm.trans h'.rest_eq) n.whole_digital
    h.stops_whole n'.whole_digital h'.stops_whole
  obtain ⟨hfraction, htail⟩ := h.fraction_unique h' htail
  obtain ⟨hmark, hrest⟩ := h.mark_unique h' htail
  exact ⟨Numeral.ext hwhole hfraction hmark, hrest⟩

/-! ### Reading a numeral -/

theorem Heads.readFraction (h : n.Heads text rest)
    (hc : c.rest = n.pointed ++ (n.mark.toList ++ rest)) :
    ∃ after, Scan.readFraction c = .ok (n.fraction.map digitsOf) after ∧
      c.Passes n.pointed after := by
  cases hfraction : n.fraction with
  | none =>
    have hpoint : c.current ≠ '.' := by
      have hstops := h.point hfraction
      have hrest : c.rest = n.mark.toList ++ rest := by simpa [pointed, hfraction] using hc
      rw [← hrest, stops_iff_current (by decide)] at hstops
      simpa using hstops
    refine ⟨c, ?_, by simpa [pointed, hfraction] using Cursor.Passes.refl c⟩
    rw [Scan.readFraction, get_bind, if_neg hpoint]
    rfl
  | some chars =>
    have hrest : c.rest = '.' :: (chars ++ (n.mark.toList ++ rest)) := by
      simpa [pointed, hfraction] using hc
    have hpasses : c.Passes ['.'] c.advance := by
      have hadvance := c.passes_advance
      rwa [hrest] at hadvance
    have hrun : c.advance.run isDigital = chars :=
      Printing.run_eq (hpasses.rest_eq hrest) (n.fraction_digital chars hfraction) h.digits
    refine ⟨c.advance.skipWhile isDigital, ?_, ?_⟩
    · rw [Scan.readFraction, get_bind, if_pos (Printing.current_eq hrest)]
      change EStateM.Result.ok (some (digitsOf (c.advance.run isDigital))) _ = _
      rw [hrun]
      rfl
    · rw [pointed, hfraction]
      exact hpasses.trans (Printing.passes_of_run hrun)

theorem Heads.readFloatSuffix (h : n.Heads text rest) (hc : c.rest = n.mark.toList ++ rest) :
    ∃ after, Scan.readFloatSuffix c = .ok n.mark.isSome after ∧
      c.Passes n.mark.toList after := by
  cases hmark : n.mark with
  | none =>
    have hsuffix : isFloatSuffix c.current = false := by
      have hstops := h.mark hmark
      have hrest : c.rest = rest := by simpa [hmark] using hc
      rwa [← hrest, stops_iff_current (by decide)] at hstops
    refine ⟨c, ?_, .refl c⟩
    rw [Scan.readFloatSuffix, get_bind, if_neg (by simpa [isFloatSuffix] using hsuffix)]
    rfl
  | some x =>
    have hrest : c.rest = x :: rest := by simpa [hmark] using hc
    have hsuffix : isFloatSuffix x := n.mark_suffix x hmark
    have hpasses := c.passes_advance
    rw [hrest] at hpasses
    refine ⟨c.advance, ?_, hpasses⟩
    rw [Scan.readFloatSuffix, get_bind, Printing.current_eq hrest,
      if_pos (by simpa [isFloatSuffix] using hsuffix)]
    rfl

theorem count_chars (n : Numeral) : n.chars.count '\n' = 0 := by
  rw [List.count_eq_zero]
  intro hmem
  rcases List.mem_append.mp hmem with hmem | hmem
  · rcases List.mem_append.mp hmem with hmem | hmem
    · exact absurd (n.whole_digital _ hmem) (by decide)
    · cases hfraction : n.fraction with
      | none => simp [pointed, hfraction] at hmem
      | some chars =>
        have hmem : '\n' ∈ chars := by simpa [pointed, hfraction] using hmem
        exact absurd (n.fraction_digital chars hfraction _ hmem) (by decide)
  · exact absurd (n.mark_suffix _ (Option.mem_toList.mp hmem)) (by decide)

/-- The literal that the digits stand for. -/
def literal? (n : Numeral) : Option Literal :=
  if n.isFloat then
    (Decimal.ofDigits? (digitsOf n.whole) (digitsOf (n.fraction.getD []))).map .float
  else (Scan.integer? (digitsOf n.whole)).map .int

/-- What the reader gives behind a numeral, in terms of the literal that it stands for. -/
def outcome (n : Numeral) (line : Nat) (after : Cursor) : EStateM.Result LexError Cursor Literal :=
  n.literal?.elim
    (.error (.malformedNumber (String.ofList (digitsOf n.whole ++
      (n.fraction.map digitsOf).elim [] ('.' :: ·))) line) after)
    (.ok · after)

theorem cursorAfter_outcome (n : Numeral) (line : Nat) (after : Cursor) :
    Scan.cursorAfter (n.outcome line after) = after := by
  unfold outcome
  cases n.literal? <;> rfl

theorem Heads.exists_read (h : n.Heads c.rest rest) :
    ∃ after, Scan.readNumber c = n.outcome c.line after ∧ c.Passes n.chars after := by
  have hrun : c.run isDigital = n.whole := Printing.run_eq h.rest_eq n.whole_digital h.stops_whole
  have hdigits : Scan.readDigits c = .ok (digitsOf n.whole) (c.skipWhile isDigital) := by
    rw [← hrun]
    rfl
  have hwhole : c.Passes n.whole (c.skipWhile isDigital) := Printing.passes_of_run hrun
  have hrest := hwhole.rest_eq h.rest_eq
  obtain ⟨mid, hfraction, hpointed⟩ := h.readFraction hrest
  obtain ⟨after, hsuffix, hmarked⟩ := h.readFloatSuffix (hpointed.rest_eq hrest)
  have hgetD : (n.fraction.map digitsOf).getD [] = digitsOf (n.fraction.getD []) := by
    cases n.fraction <;> rfl
  have hliteral : (if (n.mark.isSome || n.fraction.isSome) = true then
      (Decimal.ofDigits? (digitsOf n.whole) (digitsOf (n.fraction.getD []))).map Literal.float
    else (Scan.integer? (digitsOf n.whole)).map Literal.int) = n.literal? := rfl
  refine ⟨after, ?_, (hwhole.trans hpointed).trans hmarked⟩
  rw [Scan.readNumber, get_bind]
  dsimp only
  rw [bind_of_ok hdigits, bind_of_ok hfraction, bind_of_ok hsuffix, Option.isSome_map, hgetD,
    hliteral, outcome]
  cases n.literal? <;> rfl

theorem Heads.readNumber (h : n.Heads c.rest rest) :
    Scan.readNumber c = n.outcome c.line ⟨c.position + n.chars.length, c.line, rest⟩ := by
  obtain ⟨after, hread, hpasses⟩ := h.exists_read
  -- Readers count line breaks, and no line break is in a numeral.
  have honward := Scan.forward_readNumber c
  rw [hread, cursorAfter_outcome] at honward
  have hline : after.line = c.line := by rw [honward.line_eq hpasses, count_chars, Nat.add_zero]
  rw [hread, ← hpasses.position, ← hline, ← hpasses.rest_eq h.text]

/-! ### What a numeral stands for -/

theorem digitsOf_ne_nil {chars tail : List Char} (hstop : Stops isDigital tail)
    (hfirst : ∃ x ∈ (chars ++ tail).head?, x.isDigit) : digitsOf chars ≠ [] := by
  obtain ⟨x, hx, hdigit⟩ := hfirst
  cases chars with
  | nil =>
    have hdigital := hstop x hx
    simp [isDigital, hdigit] at hdigital
  | cons y chars =>
    cases hx
    have hne : x ≠ '_' := by
      rintro rfl
      exact absurd hdigit (by decide)
    simp [digitsOf, hne]

/-- Where a number starts there is a digit before or behind the point. -/
theorem Heads.exists_digit (h : n.Heads c.rest rest) (hstarts : startsNumber c) :
    digitsOf n.whole ≠ [] ∨ ∃ chars, n.fraction = some chars ∧ digitsOf chars ≠ [] := by
  simp only [startsNumber, Bool.or_eq_true, Bool.and_eq_true, beq_iff_eq] at hstarts
  rcases hstarts with hdigit | ⟨hpoint, hdigit⟩
  · left
    have hdigital : isDigital c.current := by simp [isDigital, hdigit]
    obtain ⟨tail, htail⟩ := rest_of_class (by decide) hdigital
    exact digitsOf_ne_nil h.stops_whole ⟨c.current, by rw [← h.rest_eq, htail]; rfl, hdigit⟩
  · right
    obtain ⟨tail, htail⟩ := Cursor.rest_of_current (c := c) (by rw [hpoint]; decide)
    rw [hpoint] at htail
    -- The point is no part of the first run, and it cannot stand behind a numeral without one.
    have hnone : n.whole = [] := by
      have hrest := h.rest_eq
      cases hwhole : n.whole with
      | nil => rfl
      | cons x chars =>
        rw [htail, hwhole] at hrest
        cases hrest
        exact absurd (n.whole_digital '.' (by simp [hwhole])) (by decide)
    have hrest : '.' :: tail = n.pointed ++ (n.mark.toList ++ rest) := by
      rw [← htail, h.rest_eq, hnone, List.nil_append]
    cases hfraction : n.fraction with
    | none =>
      have hrest : '.' :: tail = n.mark.toList ++ rest := by simpa [pointed, hfraction] using hrest
      have hstops := h.point hfraction '.' (by rw [← hrest]; rfl)
      cases hstops
    | some chars =>
      have hbehind : tail = chars ++ (n.mark.toList ++ rest) := by
        simpa [pointed, hfraction] using hrest
      refine ⟨chars, rfl, digitsOf_ne_nil h.digits ⟨c.lookahead 1, ?_, hdigit⟩⟩
      have hsome : c.lookahead 1 ≠ Cursor.endMark := by
        intro hend
        rw [hend] at hdigit
        exact absurd hdigit (by decide)
      rw [← hbehind]
      cases tail with
      | nil => exact absurd (by simp [Cursor.lookahead, htail]) hsome
      | cons y tail => simp [Cursor.lookahead, htail]

theorem integer?_digitsOf (hdigits : digitsOf n.whole ≠ []) :
    Scan.integer? (digitsOf n.whole) = int64? n.magnitude := by
  have hvalue : Decimal.digitsValue (digitsOf n.whole) = n.magnitude := by
    rw [Decimal.digitsValue, magnitude, Nat.ofDigitChars_eq_foldl]
  rw [Scan.integer?, if_neg (by simpa using hdigits), hvalue]

theorem literal?_of_fits (hint : n.isFloat = false) (hdigits : digitsOf n.whole ≠ [])
    (hfits : n.magnitude ≤ 2 ^ 63 - 1) :
    ∃ i : Int64, i.toInt = n.magnitude ∧ n.literal? = some (.int i) := by
  have hbounds : Int64.minValue.toInt ≤ n.magnitude ∧ n.magnitude ≤ Int64.maxValue.toInt := by
    have hmin : Int64.minValue.toInt = -2 ^ 63 := rfl
    have hmax : Int64.maxValue.toInt = 2 ^ 63 - 1 := rfl
    omega
  refine ⟨Int64.ofInt n.magnitude, ?_, ?_⟩
  · exact Int64.toInt_ofInt_of_le hbounds.1 (Int.lt_of_le_of_lt hbounds.2 (by decide))
  · rw [literal?, hint, integer?_digitsOf hdigits, int64?, if_pos hbounds]
    rfl

theorem literal?_of_large (hint : n.isFloat = false) (hdigits : digitsOf n.whole ≠ [])
    (hlarge : 2 ^ 63 - 1 < n.magnitude) : n.literal? = none := by
  have hbounds : ¬ (Int64.minValue.toInt ≤ n.magnitude ∧ n.magnitude ≤ Int64.maxValue.toInt) := by
    have hmax : Int64.maxValue.toInt = 2 ^ 63 - 1 := rfl
    omega
  rw [literal?, hint, integer?_digitsOf hdigits, int64?, if_neg hbounds]
  rfl

theorem value_eq (n : Numeral) :
    n.value = Decimal.digitsValue (digitsOf n.whole ++ digitsOf (n.fraction.getD [])) /
      10 ^ (digitsOf (n.fraction.getD [])).length := by
  have hdigits : Decimal.digitsValue (digitsOf n.whole ++ digitsOf (n.fraction.getD [])) =
      10 ^ (digitsOf (n.fraction.getD [])).length * n.magnitude +
        Nat.ofDigitChars 10 (digitsOf (n.fraction.getD [])) 0 := by
    rw [Decimal.digitsValue, ← Nat.ofDigitChars_eq_foldl, Nat.ofDigitChars_append,
      Nat.ofDigitChars_eq_ofDigitChars_zero, magnitude]
  rw [value, hdigits]
  push_cast
  field_simp

theorem literal?_of_float (hfloat : n.isFloat = true)
    (hdigits : digitsOf n.whole ≠ [] ∨ digitsOf (n.fraction.getD []) ≠ []) :
    ∃ x, Decimal.ofDigits? (digitsOf n.whole) (digitsOf (n.fraction.getD [])) = some x ∧
      (∀ y, Decimal.IsNearest y n.value ↔ y = x) ∧ n.literal? = some (.float x) := by
  have hsome : ∃ x,
      Decimal.ofDigits? (digitsOf n.whole) (digitsOf (n.fraction.getD [])) = some x := by
    rw [Decimal.ofDigits?, if_neg (by simpa [imp_iff_not_or] using hdigits)]
    exact ⟨_, rfl⟩
  obtain ⟨x, hx⟩ := hsome
  refine ⟨x, hx, ?_, ?_⟩
  · intro y
    rw [value_eq, Decimal.isNearest_iff_ofDigits? hdigits, hx, Option.some_inj, eq_comm]
  · rw [literal?, if_pos hfloat, hx]
    rfl

theorem fraction_of_isFloat (hint : n.isFloat = false) : n.fraction = none := by
  simp only [isFloat, Bool.or_eq_false_iff, Option.isSome_eq_false_iff,
    Option.isNone_iff_eq_none] at hint
  exact hint.2

theorem Heads.readBetween (h : n.Heads c.rest rest) (hstarts : startsNumber c) :
    n.ReadBetween c ⟨c.position + n.chars.length, c.line, rest⟩ := by
  have hdigit := h.exists_digit hstarts
  have hread := h.readNumber
  have hwhole : n.isFloat = false → digitsOf n.whole ≠ [] := by
    intro hint
    refine hdigit.resolve_right ?_
    rintro ⟨chars, hfraction, -⟩
    rw [fraction_of_isFloat hint] at hfraction
    cases hfraction
  refine ⟨?_, ?_, ?_⟩
  · intro hint hfits
    obtain ⟨i, hi, hliteral⟩ := literal?_of_fits hint (hwhole hint) hfits
    rw [outcome, hliteral] at hread
    exact ⟨i, hi, hread⟩
  · intro hint hlarge
    rw [outcome, literal?_of_large hint (hwhole hint) hlarge, fraction_of_isFloat hint] at hread
    simpa using hread
  · intro hfloat
    have hdigits : digitsOf n.whole ≠ [] ∨ digitsOf (n.fraction.getD []) ≠ [] := by
      refine hdigit.imp_right ?_
      rintro ⟨chars, hfraction, hchars⟩
      rwa [hfraction, Option.getD_some]
    obtain ⟨x, hx, hnearest, hliteral⟩ := literal?_of_float hfloat hdigits
    rw [outcome, hliteral] at hread
    exact ⟨x, hx, hnearest, hread⟩

end Numeral

end ConsoleScript
