import Mathlib
import ConsoleScript.Proofs.Console.Rejected
import ConsoleScript.Proofs.Console.Unreachable
import ConsoleScript.Proofs.Evaluation.Arithmetic
import ConsoleScript.Proofs.Source.NumberLiterals
import ConsoleScript.Proofs.Syntax.Buffering

/-!
# The texts of integers

In every session the decimal text of an integer has that integer for its value. The minus before the
digits is an operator and no part of the number. So the digits alone have to fit 64 bits, and the
least integer of 64 bits has no text.
-/

namespace ConsoleScript

open Vocabulary

/-! ### The tokens of an integer -/

def Numeral.ofNat (n : Nat) : Numeral where
  whole := Nat.toDigits 10 n
  fraction := none
  mark := none
  whole_digital x hx := by
    simp [isDigital, Nat.isDigit_of_mem_toDigits (by decide) (by decide) hx]
  fraction_digital := by simp
  mark_suffix := by simp

namespace Numeral

theorem heads_ofNat (n : Nat) : (ofNat n).Heads (Nat.toDigits 10 n) [] where
  text := by simp [chars, pointed, ofNat]
  digits := by simp [Stops, ofNat]
  point := by simp [Stops, ofNat]
  mark := by simp [Stops]

theorem digitsOf_ofNat (n : Nat) : digitsOf (ofNat n).whole = Nat.toDigits 10 n := by
  refine List.filter_eq_self.mpr fun x hx => ?_
  have hdigit : x.isDigit := Nat.isDigit_of_mem_toDigits (by decide) (by decide) hx
  simp only [ne_eq, decide_not, Bool.not_eq_true', decide_eq_false_iff_not]
  rintro rfl
  exact absurd hdigit (by decide)

theorem magnitude_ofNat (n : Nat) : (ofNat n).magnitude = n := by
  rw [magnitude, digitsOf_ofNat, Nat.ofDigitChars_ten_toDigits]

end Numeral

namespace Vocabulary

variable {c : Cursor} {n : Nat}

theorem first_digit (hc : c.rest = Nat.toDigits 10 n) :
    ∃ x xs, c.rest = x :: xs ∧ x.isDigit ∧ Text.isBlank x = false := by
  obtain ⟨x, xs, hrest⟩ := List.exists_cons_of_ne_nil (hc ▸ Nat.toDigits_ne_nil)
  have hmem : x ∈ Nat.toDigits 10 n := by simp [← hc, hrest]
  have hx : x.isDigit := Nat.isDigit_of_mem_toDigits (by decide) (by decide) hmem
  exact ⟨x, xs, hrest, hx, Printing.isBlank_eq_false (Printing.isWordChar_of_isDigit hx)⟩

/-- The digits of a natural at the end of a text are read to the end. -/
theorem readBetween_digits (hc : c.rest = Nat.toDigits 10 n) :
    (Numeral.ofNat n).ReadBetween c
      ⟨c.position + (Numeral.ofNat n).chars.length, c.line, []⟩ := by
  obtain ⟨x, xs, hrest, hx, -⟩ := first_digit hc
  have hheads : (Numeral.ofNat n).Heads c.rest [] := hc ▸ Numeral.heads_ofNat n
  exact hheads.readBetween (by simp [startsNumber, Printing.current_eq hrest, hx])

theorem step_digits (hc : c.rest = Nat.toDigits 10 n) (h : n ≤ 2 ^ 63 - 1) :
    ∃ (i : Int64) (after : Cursor), i.toInt = n ∧ after.line = c.line ∧ after.rest = [] ∧
      console.step c = .token ⟨.integer, some (.int i), c.line⟩ after := by
  obtain ⟨x, xs, hrest, hx, hblank⟩ := first_digit hc
  have hfits : (Numeral.ofNat n).magnitude ≤ 2 ^ 63 - 1 := by rwa [Numeral.magnitude_ofNat]
  obtain ⟨i, hi, hread⟩ := (readBetween_digits hc).integer rfl hfits
  rw [Numeral.magnitude_ofNat] at hi
  have hstep := Printing.step_valued hrest hblank (Printing.select_number hrest hx) hread
  exact ⟨i, ⟨c.position + (Numeral.ofNat n).chars.length, c.line, []⟩, hi, rfl, rfl, hstep⟩

theorem step_large_digits (hc : c.rest = Nat.toDigits 10 n) (h : 2 ^ 63 - 1 < n) :
    ∃ after, console.step c = .failure (.malformedNumber (toString n) c.line) after := by
  obtain ⟨x, xs, hrest, hx, hblank⟩ := first_digit hc
  have hlarge : 2 ^ 63 - 1 < (Numeral.ofNat n).magnitude := by rwa [Numeral.magnitude_ofNat]
  have hread := (readBetween_digits hc).malformed rfl hlarge
  rw [Numeral.digitsOf_ofNat, ← Nat.toString_eq_ofList_toDigits] at hread
  have hlexeme : (Rule.valued startsNumber Scan.readNumber Kind.ofNumber).read c = .error _ _ :=
    bind_of_error (f := fun value =>
      pure (Lexeme.token (Token.withValue (Kind.ofNumber value) value c.line))) hread
  exact ⟨_, RuleSet.step_of_error (by simp [hrest]) (by rwa [Printing.current_eq hrest])
    (Printing.select_number hrest hx) (bind_of_error hlexeme)⟩

/-- The tokens before the digits of an integer. -/
def sign (n : Int) : List (Token Kind) :=
  if n < 0 then [Token.plain .minus 1] else []

theorem lexes_sign (n : Int) : ∃ position, console.Lexes (Cursor.start (toString n)) (sign n)
    ⟨position, 1, Nat.toDigits 10 n.natAbs⟩ := by
  cases n with
  | ofNat n =>
    have hstart : Cursor.start (toString (Int.ofNat n)) = ⟨0, 1, Nat.toDigits 10 n⟩ :=
      congrArg (Cursor.mk 0 1) Nat.toList_repr
    rw [hstart]
    exact ⟨0, .refl _⟩
  | negSucc n =>
    have hstart : Cursor.start (toString (Int.negSucc n)) =
        ⟨0, 1, '-' :: Nat.toDigits 10 (n + 1)⟩ := by
      change Cursor.mk 0 1 ("-" ++ Nat.repr (n + 1)).toList = _
      rw [String.toList_append, Nat.toList_repr]
      rfl
    rw [hstart, sign, if_pos (Int.negSucc_lt_zero n)]
    exact ⟨1, .token (List.cons_ne_nil _ _) rfl (.refl _)⟩

end Vocabulary

/-! ### The tree of an integer -/

/-- The tree for an integer whose digits have a literal. -/
def signed (n : Int) (i : Int64) : Node :=
  if n < 0 then .negation (.literal (.int i) 1) 1 else .literal (.int i) 1

theorem parseFrom_signed (n : Int) (i : Int64) :
    Grammar.parseFrom (⟨sign n ++ [⟨.integer, some (.int i), 1⟩], .ok 1⟩ : Buffer Kind) =
      .ok (.block [signed n i] 1) := by
  -- The parser looks at the kinds of tokens only, so it runs with a literal that is left open.
  by_cases hn : n < 0
  · rw [sign, signed, if_pos hn, if_pos hn]
    cbv
  · rw [sign, signed, if_neg hn, if_neg hn]
    cbv

theorem parseFrom_unread (n : Int) (e : LexError) :
    Grammar.parseFrom (⟨sign n, .error e⟩ : Buffer Kind) = .error (.lexing e) := by
  by_cases hn : n < 0
  · rw [sign, if_pos hn]
    cbv
  · rw [sign, if_neg hn]
    cbv

theorem parse_toString {n : Int} (h : n.natAbs ≤ 2 ^ 63 - 1) :
    ∃ i : Int64, i.toInt = n.natAbs ∧
      parse console (toString n) = .ok (.block [signed n i] 1) := by
  obtain ⟨position, hsign⟩ := lexes_sign n
  obtain ⟨i, after, hi, hline, hrest, hstep⟩ :=
    step_digits (c := ⟨position, 1, Nat.toDigits 10 n.natAbs⟩) rfl h
  have hway := hsign.trans (.token (by simp [Nat.toDigits_ne_nil]) hstep (.refl after))
  have hbuffer := buffered_of_end progresses_console proper_console hway hrest
  rw [hline] at hbuffer
  exact ⟨i, hi, by rw [parse_eq_parseFrom_buffered, hbuffer, parseFrom_signed]⟩

theorem parse_toString_large {n : Int} (h : 2 ^ 63 - 1 < n.natAbs) :
    parse console (toString n) =
      .error (.lexing (.malformedNumber (toString n.natAbs) 1)) := by
  obtain ⟨position, hsign⟩ := lexes_sign n
  obtain ⟨after, hstep⟩ :=
    step_large_digits (c := ⟨position, 1, Nat.toDigits 10 n.natAbs⟩) rfl h
  have hbuffer := buffered_of_failure progresses_console proper_console hsign hstep
  rw [parse_eq_parseFrom_buffered, hbuffer, parseFrom_unread]

/-! ### The value of an integer -/

/-- A text does what one or two operations of an evaluator do. -/
theorem Session.Reached.reachable {s : State} (h : Reached s) : Reachable s := by
  induction h with
  | initial output => exact .initial output
  | @text s _ text ih =>
    have hclear : Reachable s.clearErrors := ih.operation .clearErrors
    cases hparse : parse console text with
    | error e =>
      rw [Session.run_of_parse_error hparse]
      exact hclear
    | ok tree =>
      rw [Session.run_of_parse_ok hparse]
      exact hclear.operation (.unit tree)
  | report _ ih => exact ih.operation .reportErrors

theorem node_signed {s : State} (hs : s.registry.Seeded) {n : Int} {i : Int64}
    (hi : i.toInt = n.natAbs) :
    ∃ m : Int64, m.toInt = n ∧ Eval.node (signed n i) s = .ok (some (.int m)) s := by
  have hliteral : Eval.node (.literal (.int i) 1) s = .ok (some (.int i)) s := rfl
  by_cases hn : n < 0
  · have hneg : -i.toInt = n := by omega
    -- There is one more integer below zero than above, so negation cannot overflow here.
    have hint : IsInt64 n := by
      have hbound := i.toInt_le
      have hmax : Int64.maxValue.toInt = 2 ^ 63 - 1 := rfl
      constructor <;> omega
    obtain ⟨m, hm, hcomputed⟩ := Builtin.computed_ok hint 1
    refine ⟨m, hm, ?_⟩
    rw [signed, if_pos hn, Eval.node_negation_int hs hliteral, hneg, hcomputed]
    rfl
  · refine ⟨i, by omega, ?_⟩
    rw [signed, if_neg hn, hliteral]

theorem Session.run_toString {s : State} (hs : Reached s) {n : Int} (h : n.natAbs ≤ 2 ^ 63 - 1) :
    ∃ m : Int64, m.toInt = n ∧ run (toString n) s = (.ok (some (.int m)), s.clearErrors) := by
  obtain ⟨i, hi, hparse⟩ := parse_toString h
  have hseeded : s.clearErrors.registry.Seeded := hs.reachable.seeded
  obtain ⟨m, hm, hnode⟩ := node_signed hseeded hi
  have hstatements : Eval.statements none [signed n i] s.clearErrors =
      (some (.int m), s.clearErrors) := by
    rw [Eval.statements_cons, Eval.orLog, hnode]
    rfl
  exact ⟨m, hm, by rw [run_of_parse hparse, hstatements]⟩

/-- Where a number starts, the text begins with one numeral, and the reader takes it: as an integer
or the nearest float by its point and suffix, and never as a malformed number but for the size of an
integer. In a session the text of every integer from `-(2 ^ 63 - 1)` to `2 ^ 63 - 1` has that value
and changes nothing but the log; the text of any other integer is a malformed number. -/
theorem number_texts_denote :
    (∀ c : Cursor, startsNumber c → ∃ (n : Numeral) (rest : List Char), n.Heads c.rest rest ∧
      (∀ m tail, Numeral.Heads m c.rest tail → m = n ∧ tail = rest) ∧
      n.ReadBetween c ⟨c.position + n.chars.length, c.line, rest⟩) ∧
    ∀ s : State, Session.Reached s → ∀ n : Int,
      (-(2 ^ 63 - 1) ≤ n ∧ n ≤ 2 ^ 63 - 1 → ∃ m : Int64, m.toInt = n ∧
        Session.run (toString n) s = (.ok (some (.int m)), s.clearErrors)) ∧
      (¬ (-(2 ^ 63 - 1) ≤ n ∧ n ≤ 2 ^ 63 - 1) → Session.run (toString n) s =
        (.error (.lexing (.malformedNumber (toString n.natAbs) 1)), s.clearErrors)) := by
  constructor
  · intro c hc
    obtain ⟨n, rest, hheads⟩ := Numeral.exists_heads c.rest
    exact ⟨n, rest, hheads, fun m tail h => h.unique hheads, hheads.readBetween hc⟩
  · intro s hs n
    constructor
    · intro hfits
      exact Session.run_toString hs (by omega)
    · intro hlarge
      exact Session.run_of_parse_error (parse_toString_large (by omega)) s

/-- The first integer that is too large, written with underscores. -/
def largeNumeral : Numeral where
  whole := "9_223_372_036_854_775_808_".toList
  fraction := none
  mark := none
  whole_digital := List.all_eq_true.mp (by decide)
  fraction_digital := by simp
  mark_suffix := by simp

/-- The number `2 ^ 53 + 1`, halfway between two floats. -/
def halfwayNumeral : Numeral where
  whole := "9_007_199_254_740_993".toList
  fraction := some []
  mark := some 'f'
  whole_digital := List.all_eq_true.mp (by decide)
  fraction_digital := by simp
  mark_suffix := by simp [isFloatSuffix]

/-- A session with a function, and with a failure in its log. -/
def failedSession : State :=
  (Session.run "func int same(int n) n; 1 + y" State.initial).2

theorem number_texts_denote_edges :
    startsNumber (Cursor.start "9_223_372_036_854_775_808_;") ∧
    startsNumber (Cursor.start "9_007_199_254_740_993.f;") ∧ Session.Reached failedSession ∧
    Scan.readNumber (Cursor.start "9_223_372_036_854_775_808_;") =
      .error (.malformedNumber "9223372036854775808" 1) ⟨26, 1, [';']⟩ ∧
    Scan.readNumber (Cursor.start "9_007_199_254_740_993.f;") =
      .ok (.float (Float.ofBits 0x4340000000000000)) ⟨23, 1, [';']⟩ ∧
    (∀ y, Decimal.IsNearest y 9007199254740993 ↔ y = Float.ofBits 0x4340000000000000) ∧
    (∃ m : Int64, m.toInt = -9223372036854775807 ∧
      Session.run "-9223372036854775807" failedSession =
        (.ok (some (.int m)), failedSession.clearErrors)) ∧
    Session.run "-9223372036854775808" failedSession =
      (.error (.lexing (.malformedNumber "9223372036854775808" 1)),
        failedSession.clearErrors) := by
  have hstarts : startsNumber (Cursor.start "9_223_372_036_854_775_808_;") := rfl
  have hstarts' : startsNumber (Cursor.start "9_007_199_254_740_993.f;") := rfl
  have hreached : Session.Reached failedSession := .text (.initial .empty) _
  have hheads : largeNumeral.Heads (Cursor.start "9_223_372_036_854_775_808_;").rest [';'] := by
    refine ⟨rfl, ?_, fun _ => ?_, fun _ => ?_⟩ <;> rintro x ⟨⟩ <;> rfl
  have hheads' : halfwayNumeral.Heads (Cursor.start "9_007_199_254_740_993.f;").rest [';'] := by
    refine ⟨rfl, ?_, fun _ => ?_, fun _ => ?_⟩ <;> rintro x ⟨⟩ <;> rfl
  obtain ⟨hreads, hruns⟩ := number_texts_denote
  obtain ⟨n, rest, -, hunique, hread⟩ := hreads _ hstarts
  obtain ⟨rfl, rfl⟩ := hunique _ _ hheads
  obtain ⟨n', rest', -, hunique', hread'⟩ := hreads _ hstarts'
  obtain ⟨rfl, rfl⟩ := hunique' _ _ hheads'
  have hlarge : 2 ^ 63 - 1 < largeNumeral.magnitude := by decide
  -- The two floats around the number are as near as each other, and the smaller one is even.
  obtain ⟨x, hx, hnearest, hfloat⟩ := hread'.float rfl
  have hhalfway : Decimal.ofDigits? (digitsOf halfwayNumeral.whole) [] =
      some (Float.ofBits 0x4340000000000000) := by
    have hbits : Decimal.nearestBits 9007199254740993 1 = 0x4340000000000000 := by decide +kernel
    change some (Float.ofBits (Decimal.nearestBits 9007199254740993 1).toUInt64) = _
    rw [hbits]
    rfl
  obtain rfl := Option.some.inj (hx.symm.trans hhalfway)
  have hmagnitude : halfwayNumeral.magnitude = 9007199254740993 := by decide
  have hvalue : halfwayNumeral.value = 9007199254740993 := by
    have hfraction : digitsOf (halfwayNumeral.fraction.getD []) = [] := rfl
    rw [Numeral.value, hmagnitude, hfraction, Nat.ofDigitChars_nil]
    norm_num
  rw [hvalue] at hnearest
  have hrun := hruns _ hreached
  obtain ⟨m, hm, hleast⟩ := (hrun (-9223372036854775807)).1 (by decide)
  have hbeyond := (hrun (-9223372036854775808)).2 (by decide)
  exact ⟨hstarts, hstarts', hreached, hread.malformed rfl hlarge, hfloat, hnearest,
    ⟨m, hm, hleast⟩, hbeyond⟩

end ConsoleScript
