import Mathlib
import ConsoleScript.Proofs.Printing.Spelling
import ConsoleScript.Proofs.Token.Joining

/-!
# How tokens are spelled

The characters that a token of the console language may take, in front of those that follow it. A
word or a number takes all characters that it can, so what follows matters. Whatever the lexer gives
as a token is spelled in one of these ways.
-/

namespace ConsoleScript

open Text

namespace Kind

/-- The spelling of punctuation. -/
def symbol? : Kind → Option String
  | leftParen => some "("
  | rightParen => some ")"
  | leftBrace => some "\x7b"
  | rightBrace => some "\x7d"
  | comma => some ","
  | semicolon => some ";"
  | assign => some "="
  | plus => some "+"
  | minus => some "-"
  | multiply => some "*"
  | divide => some "/"
  | _ => none

/-- The spelling of reserved words. -/
def word? : Kind → Option String
  | null => some "null"
  | .true => some "true"
  | .false => some "false"
  | .if => some "if"
  | .else => some "else"
  | loop => some "loop"
  | typeOf => some "typeof"
  | func => some "func"
  | .return => some "return"
  | var => some "var"
  | print => some "print"
  | _ => none

end Kind

/-- The next character, if there is one, is not of the class. -/
def Stops (p : Char → Bool) (rest : List Char) : Prop :=
  ∀ x ∈ rest.head?, p x = false

def isDigital (x : Char) : Bool :=
  x.isDigit || x == '_'

/-- The digits among digits and underscores. -/
def digitsOf (chars : List Char) : List Char :=
  chars.filter (· ≠ '_')

def isFloatSuffix (x : Char) : Bool :=
  x == 'f' || x == 'F'

/-- The characters spell a token of this kind and value in front of those that follow. A number
begins with a digit, or else with a point and a digit; a string is written with a backslash before
each of its quotes, and does not end in a backslash. -/
inductive Spelled : List Char → List Char → Kind → Option Literal → Prop where
  | symbol {kind : Kind} {text : String} {rest : List Char} (h : kind.symbol? = some text) :
      Spelled text.toList rest kind none
  | word {kind : Kind} {text : String} {rest : List Char} (h : kind.word? = some text)
      (hend : Stops isWordChar rest) : Spelled text.toList rest kind none
  | identifier {text : String} {rest : List Char} (h : Printing.isName text)
      (hend : Stops isWordChar rest) :
      Spelled text.toList rest .identifier (some (.text text))
  | integer {chars rest : List Char} {n : Int64} (hfirst : ∃ x ∈ chars.head?, x.isDigit)
      (hchars : ∀ x ∈ chars, isDigital x)
      (hend : Stops (fun x => isDigital x || x == '.' || isFloatSuffix x) rest)
      (hvalue : n.toInt = Nat.ofDigitChars 10 (digitsOf chars) 0) :
      Spelled chars rest .integer (some (.int n))
  | float {whole rest : List Char} {fraction : Option (List Char)} {mark : Option Char} {x : Float}
      (hfirst : (∃ x ∈ whole.head?, x.isDigit) ∨
        whole = [] ∧ ∃ chars ∈ fraction, ∃ x ∈ chars.head?, x.isDigit)
      (hwhole : ∀ x ∈ whole, isDigital x)
      (hfraction : ∀ chars ∈ fraction, ∀ x ∈ chars, isDigital x)
      (hmark : ∀ x ∈ mark, isFloatSuffix x) (hfloat : fraction.isSome ∨ mark.isSome)
      (hend : mark = none → Stops (fun x => isDigital x || isFloatSuffix x) rest)
      (hvalue : Decimal.ofDigits? (digitsOf whole) (digitsOf (fraction.getD [])) = some x) :
      Spelled (whole ++ fraction.elim [] ('.' :: ·) ++ mark.toList) rest .float (some (.float x))
  | string {s : String} {rest : List Char} (hlast : s.toList.getLast? ≠ some '\\') :
      Spelled ('"' :: s.toList.flatMap Printing.Constant.escape ++ ['"']) rest .string
        (some (.text s))

theorem stops_iff_current {p : Char → Bool} {c : Cursor} (hmark : p Cursor.endMark = false) :
    Stops p c.rest ↔ p c.current = false := by
  cases hrest : c.rest with
  | nil => simp [Stops, Cursor.current, Cursor.lookahead, hrest, hmark]
  | cons x rest => simp [Stops, Cursor.current, Cursor.lookahead, hrest]

theorem stops_skipWhile (p : Char → Bool) (c : Cursor) : Stops p (c.skipWhile p).rest := by
  intro x hx
  have hhead := List.head?_dropWhile_not p c.rest
  rw [Cursor.rest_skipWhile] at hx
  rw [hx] at hhead
  exact hhead

theorem run_cons {p : Char → Bool} {c : Cursor} {x : Char} {rest : List Char}
    (h : c.rest = x :: rest) (hx : p x) : c.run p = x :: rest.takeWhile p := by
  rw [Cursor.run, h, List.takeWhile_cons_of_pos hx]

theorem rest_of_class {p : Char → Bool} {c : Cursor} (hmark : p Cursor.endMark = false)
    (h : p c.current) : ∃ rest, c.rest = c.current :: rest := by
  apply Cursor.rest_of_current
  intro hend
  rw [hend, hmark] at h
  cases h

theorem head?_run {p : Char → Bool} {c : Cursor} (hmark : p Cursor.endMark = false)
    (h : p c.current) : (c.run p).head? = some c.current := by
  obtain ⟨rest, hrest⟩ := rest_of_class hmark h
  rw [run_cons hrest h, List.head?_cons]

theorem lookahead_of_passes {c after : Cursor} {taken : List Char} (h : c.Passes taken after) :
    c.lookahead taken.length = after.current := by
  simp [Cursor.current, Cursor.lookahead, h.rest, List.getD_eq_getElem?_getD,
    List.getElem?_append_right]

theorem mem_run {p : Char → Bool} {c : Cursor} {x : Char} (h : x ∈ c.run p) : p x :=
  List.mem_takeWhile_imp h

namespace Vocabulary

variable {c after : Cursor}

/-! ### Numbers -/

theorem fraction_of_read {fraction : Option (List Char)}
    (h : Scan.readFraction c = .ok fraction after) :
    (fraction = none ∧ after = c ∧ c.current ≠ '.') ∨
      ∃ chars, fraction = some (digitsOf chars) ∧ c.Passes ('.' :: chars) after ∧
        (∀ x ∈ chars, isDigital x) ∧ chars = c.advance.run isDigital ∧
        Stops isDigital after.rest := by
  by_cases hpoint : c.current = '.'
  · obtain ⟨rest, hrest⟩ := Cursor.rest_of_current (c := c) (by rw [hpoint]; decide)
    rw [Scan.readFraction, get_bind, if_pos hpoint] at h
    cases h
    refine .inr ⟨c.advance.run isDigital, rfl, ?_, fun x hx => mem_run hx, rfl,
      stops_skipWhile _ _⟩
    have hfirst : c.Passes ['.'] c.advance := by
      have hpasses := c.passes_advance
      rwa [hrest, hpoint] at hpasses
    exact hfirst.trans (c.advance.passes_skipWhile isDigital)
  · rw [Scan.readFraction, get_bind, if_neg hpoint] at h
    cases h
    exact .inl ⟨rfl, rfl, hpoint⟩

theorem suffix_of_read {suffixed : Bool} (h : Scan.readFloatSuffix c = .ok suffixed after) :
    ∃ mark : Option Char, suffixed = mark.isSome ∧ c.Passes mark.toList after ∧
      (∀ x ∈ mark, isFloatSuffix x) ∧ (mark = none → after = c ∧ Stops isFloatSuffix c.rest) := by
  by_cases hsuffix : isFloatSuffix c.current
  · have hcurrent : c.current = 'f' ∨ c.current = 'F' := by simpa [isFloatSuffix] using hsuffix
    obtain ⟨rest, hrest⟩ := rest_of_class (by decide) hsuffix
    rw [Scan.readFloatSuffix, get_bind, if_pos (by simpa using hcurrent)] at h
    cases h
    have hpasses := c.passes_advance
    rw [hrest] at hpasses
    exact ⟨some c.current, rfl, hpasses, by simpa using hsuffix, by simp⟩
  · have hcurrent : ¬ (c.current = 'f' ∨ c.current = 'F') := by simpa [isFloatSuffix] using hsuffix
    rw [Scan.readFloatSuffix, get_bind, if_neg (by simpa using hcurrent)] at h
    cases h
    refine ⟨none, rfl, .refl c, by simp, fun _ => ⟨rfl, ?_⟩⟩
    rw [stops_iff_current (by decide)]
    simpa using hsuffix

theorem toInt_of_integer? {digits : List Char} {n : Int64} (h : Scan.integer? digits = some n) :
    n.toInt = Nat.ofDigitChars 10 digits 0 := by
  rw [Nat.ofDigitChars_eq_foldl]
  simp only [Scan.integer?, int64?, Option.ite_none_left_eq_some, List.isEmpty_iff] at h
  obtain ⟨-, hfits⟩ := h
  split at hfits
  · rename_i hbounds
    cases hfits
    apply Int64.toInt_ofInt_of_le
    · exact hbounds.1
    · exact Int.lt_of_le_of_lt hbounds.2 (by decide)
  · cases hfits

theorem first_of_startsNumber (h : startsNumber c) :
    (∃ x ∈ (c.run isDigital).head?, x.isDigit) ∨
      c.run isDigital = [] ∧ c.current = '.' ∧
        ∃ x ∈ (c.advance.run isDigital).head?, x.isDigit := by
  simp only [startsNumber, Bool.or_eq_true, Bool.and_eq_true, beq_iff_eq] at h
  rcases h with hdigit | ⟨hpoint, hdigit⟩
  · exact .inl ⟨c.current, head?_run (by decide) (by simp [isDigital, hdigit]), hdigit⟩
  · obtain ⟨rest, hrest⟩ := Cursor.rest_of_current (c := c) (by rw [hpoint]; decide)
    rw [hpoint] at hrest
    have hnone : c.run isDigital = [] := by
      rw [Cursor.run, hrest, List.takeWhile_cons_of_neg (by decide)]
    have hadvance : c.advance.current = c.lookahead 1 := by
      simp [Cursor.advance_of_rest hrest, Cursor.current, Cursor.lookahead, hrest]
    rw [← hadvance] at hdigit
    refine .inr ⟨hnone, hpoint, c.advance.current, ?_, hdigit⟩
    exact head?_run (by decide) (by simp [isDigital, hdigit])

/-- The parts of a number, and what they amount to. -/
theorem number_of_read {value : Literal} (h : Scan.readNumber c = .ok value after) :
    ∃ fraction suffixed mid, Scan.readFraction (c.skipWhile isDigital) = .ok fraction mid ∧
      Scan.readFloatSuffix mid = .ok suffixed after ∧
      (if suffixed || fraction.isSome then
        (Decimal.ofDigits? (digitsOf (c.run isDigital)) (fraction.getD [])).map Literal.float
      else (Scan.integer? (digitsOf (c.run isDigital))).map Literal.int) = some value := by
  obtain ⟨_, rfl, h⟩ := get_bind_ok h
  obtain ⟨whole, c₁, hwhole, h⟩ := bind_ok h
  cases hwhole
  obtain ⟨fraction, mid, hfraction, h⟩ := bind_ok h
  obtain ⟨suffixed, last, hsuffixed, h⟩ := bind_ok h
  obtain ⟨p, hp, h⟩ : ∃ p : Scan Literal, _ = p ∧ p last = .ok value after := ⟨_, rfl, h⟩
  dsimp only at hp
  split at hp
  · rename_i hliteral
    subst hp
    cases h
    exact ⟨fraction, suffixed, mid, hfraction, hsuffixed, hliteral⟩
  · subst hp
    cases h

theorem skipWhile_of_run_nil {p : Char → Bool} (h : c.run p = []) : c.skipWhile p = c := by
  rw [Cursor.skipWhile, h]
  rfl

theorem spelled_number {value : Literal} (hstarts : startsNumber c)
    (h : Scan.readNumber c = .ok value after) :
    ∃ lexeme, c.Passes lexeme after ∧
      Spelled lexeme after.rest (Kind.ofNumber value) (some value) := by
  obtain ⟨fraction, suffixed, mid, hfraction, hsuffixed, hliteral⟩ := number_of_read h
  have hpasses := c.passes_skipWhile isDigital
  have hdigital : ∀ x ∈ c.run isDigital, isDigital x := fun x hx => mem_run hx
  have hfirst := first_of_startsNumber hstarts
  obtain ⟨mark, rfl, hmarked, hmark, hunmarked⟩ := suffix_of_read hsuffixed
  rcases fraction_of_read hfraction with
    ⟨rfl, rfl, hpoint⟩ | ⟨chars, rfl, hpart, hchars, hrun, hstop⟩
  · -- Without a point the number begins with a digit.
    have hdigit : ∃ x ∈ (c.run isDigital).head?, x.isDigit := by
      refine hfirst.resolve_right ?_
      rintro ⟨hnone, hcurrent, _⟩
      exact hpoint (by rw [skipWhile_of_run_nil hnone, hcurrent])
    cases mark with
    | none =>
      obtain ⟨rfl, hunsuffixed⟩ := hunmarked rfl
      obtain ⟨n, hn, rfl⟩ := Option.map_eq_some_iff.mp hliteral
      refine ⟨_, hpasses, .integer hdigit hdigital ?_ (toInt_of_integer? hn)⟩
      intro x hx
      have hx' : x ≠ '.' := by
        rintro rfl
        obtain ⟨rest, hrest⟩ := List.head?_eq_some_iff.mp hx
        exact hpoint (Printing.current_eq hrest)
      simp [stops_skipWhile _ _ x hx, hunsuffixed x hx, hx']
    | some mark =>
      obtain ⟨x, hx, rfl⟩ := Option.map_eq_some_iff.mp hliteral
      have hlexeme : c.run isDigital ++ [mark] =
          c.run isDigital ++ (none : Option (List Char)).elim [] ('.' :: ·) ++
            (some mark).toList := by simp
      refine ⟨c.run isDigital ++ [mark], hpasses.trans hmarked, ?_⟩
      rw [hlexeme]
      exact .float (.inl hdigit) hdigital (by simp) hmark (.inr rfl) (by simp) hx
  · have hpoint : (mark.isSome || (some (digitsOf chars)).isSome) = true := by simp
    rw [if_pos hpoint] at hliteral
    obtain ⟨x, hx, rfl⟩ := Option.map_eq_some_iff.mp hliteral
    refine ⟨_, (hpasses.trans hpart).trans hmarked, ?_⟩
    change Spelled (c.run isDigital ++ (some chars).elim [] ('.' :: ·) ++ mark.toList) _ _ _
    refine .float ?_ hdigital ?_ hmark (.inl rfl) ?_ hx
    · refine hfirst.imp_right ?_
      rintro ⟨hnone, -, hdigit⟩
      rw [skipWhile_of_run_nil hnone] at hrun
      exact ⟨hnone, chars, rfl, hrun ▸ hdigit⟩
    · rintro chars' ⟨⟩
      exact hchars
    · intro hnone
      obtain ⟨rfl, hunsuffixed⟩ := hunmarked hnone
      intro x hx
      simp [hstop x hx, hunsuffixed x hx]

/-! ### Names -/

/-- A run of word characters that is not a reserved word is a name. -/
theorem isName_of_run (hstarts : startsIdentifier c) (hreserved : ∀ key ∈ Printing.reserved,
    c.startsWith key → isWordChar (c.lookahead key.length)) :
    Printing.isName (String.ofList (c.run isWordChar)) := by
  have hpasses := c.passes_skipWhile isWordChar
  have hword : isWordChar c.current := by
    simp only [startsIdentifier, Bool.or_eq_true, Bool.and_eq_true] at hstarts
    simp only [isWordChar, isAlphanumeric, Bool.or_eq_true]
    exact hstarts.imp .inl And.left
  obtain ⟨rest, hrest⟩ := rest_of_class (by decide) hword
  have hfirst := (Printing.startsIdentifier_iff hrest).mp hstarts
  have hrun := run_cons hrest hword
  simp only [Printing.isName, Bool.and_eq_true, Bool.not_eq_true', String.toList_ofList]
  refine ⟨⟨?_, List.all_eq_true.mpr fun x hx => mem_run hx⟩, ?_⟩
  · have hchars : (Cursor.start (String.ofList (c.run isWordChar))).rest =
        c.current :: rest.takeWhile isWordChar := by
      rw [Cursor.start, String.toList_ofList, hrun]
    rw [Printing.startsIdentifier_iff hchars]
    refine hfirst.imp_right (And.imp_right ?_)
    rintro ⟨y, hy, halpha⟩
    obtain ⟨ys, rfl⟩ := List.head?_eq_some_iff.mp hy
    have hy' : isWordChar y := by simp [isWordChar, isAlphanumeric, halpha]
    exact ⟨y, by simp [List.takeWhile_cons_of_pos hy'], halpha⟩
  · -- The run goes as far as word characters do, so none follows the reserved word.
    rw [← Bool.not_eq_true, List.contains_iff_mem]
    intro hmem
    have hstands : c.startsWith (String.ofList (c.run isWordChar)) := by
      rw [Cursor.startsWith, String.toList_ofList, List.isPrefixOf_iff_prefix]
      exact List.takeWhile_prefix isWordChar
    have hcontinues := hreserved _ hmem hstands
    rw [String.length_ofList, lookahead_of_passes hpasses,
      (stops_iff_current (by decide)).mp (stops_skipWhile isWordChar c)] at hcontinues
    cases hcontinues

/-! ### Strings -/

theorem chars_of_unquote {taken chars text : List Char} {width n : Nat}
    (h : Scan.unquote taken width chars = some (text, n)) :
    ∃ s tail, text = taken.reverse ++ s ∧ s.getLast? ≠ some '\\' ∧
      chars = s.flatMap Printing.Constant.escape ++ '"' :: tail := by
  induction taken, width, chars using Scan.unquote.induct with
  | case1 taken width =>
    rw [Scan.unquote] at h
    cases h
  | case2 taken width tail =>
    rw [Scan.unquote] at h
    cases h
    exact ⟨[], tail, by simp, by simp, by simp⟩
  | case3 taken width rest ih =>
    rw [Scan.unquote] at h
    obtain ⟨s, tail, rfl, hlast, rfl⟩ := ih h
    refine ⟨'"' :: s, tail, by simp, ?_, by simp [Printing.Constant.escape]⟩
    cases s with
    | nil => decide
    | cons x s => rwa [List.getLast?_cons_cons]
  | case4 taken width x rest hquote hescape ih =>
    rw [Scan.unquote] at h
    · obtain ⟨s, tail, rfl, hlast, rfl⟩ := ih h
      have hplain : x ≠ '"' := hquote
      refine ⟨x :: s, tail, by simp, ?_, by simp [Printing.Constant.escape, hplain]⟩
      cases s with
      | nil =>
        -- The quote that ends the string would be escaped by a backslash before it.
        rw [List.getLast?_singleton, ne_eq, Option.some_inj]
        rintro rfl
        exact hescape tail rfl rfl
      | cons y s => rwa [List.getLast?_cons_cons]
    · exact hquote
    · exact hescape

theorem spelled_string {s : String} (hstarts : startsString c)
    (h : Scan.readString c = .ok s after) :
    ∃ lexeme, c.Passes lexeme after ∧ Spelled lexeme after.rest .string (some (.text s)) := by
  have hcurrent : c.current = '"' := by simpa [startsString] using hstarts
  obtain ⟨rest, hrest⟩ := Cursor.rest_of_current (c := c) (by rw [hcurrent]; decide)
  rw [hcurrent] at hrest
  have hopened : c.advance.rest = rest := by rw [Cursor.advance_of_rest hrest]
  have hread := h
  unfold Scan.readString at h
  dsimp only at h
  split at h
  · rename_i chars width hunquote
    cases h
    obtain ⟨s, tail, rfl, hlast, hchars⟩ := chars_of_unquote hunquote
    have hlast' : (String.ofList chars).toList.getLast? ≠ some '\\' := by
      rwa [String.toList_ofList]
    have hspelled : c.rest = ('"' :: (String.ofList chars).toList.flatMap
        Printing.Constant.escape ++ ['"']) ++ tail := by
      rw [hrest, ← hopened, hchars, String.toList_ofList]
      simp
    obtain ⟨after, hagain, hpasses⟩ := Printing.readString_eq hlast' hspelled
    cases hread.symm.trans hagain
    exact ⟨_, hpasses, .string hlast'⟩
  · cases h

/-! ### Rules -/

theorem passes_key {key : String} (h : c.startsWith key) :
    c.Passes key.toList (c.advanceBy key.length) := by
  obtain ⟨rest, hrest⟩ := Cursor.rest_of_startsWith h
  have hpasses := c.passes_advanceBy key.length
  rwa [hrest, ← String.length_toList, List.take_left, String.length_toList] at hpasses

theorem literal_of_mem {r : Rule Kind} (h : r ∈ punctuation) :
    ∃ key kind, r = Rule.literal key kind ∧ kind.symbol? = some key := by
  simp only [punctuation, List.mem_cons, List.not_mem_nil, or_false] at h
  rcases h with rfl | rfl | rfl | rfl | rfl | rfl | rfl | rfl | rfl | rfl | rfl <;>
    exact ⟨_, _, rfl, rfl⟩

theorem keyword_of_mem {r : Rule Kind} (h : r ∈ reservedWords) :
    ∃ key kind, r = Rule.keyword key kind ∧ kind.word? = some key := by
  simp only [reservedWords, List.mem_cons, List.not_mem_nil, or_false] at h
  rcases h with rfl | rfl | rfl | rfl | rfl | rfl | rfl | rfl | rfl | rfl | rfl <;>
    exact ⟨_, _, rfl, rfl⟩

theorem spelled_keyword {key : String} {kind : Kind} {t : Token Kind}
    (hkind : kind.word? = some key) (happlies : (Rule.keyword key kind).applies c)
    (hrun : (Rule.keyword key kind).run c = .ok (.token t) after) :
    t.line = c.line ∧ ∃ lexeme, c.Passes lexeme after ∧
      Spelled lexeme after.rest t.kind t.value := by
  have happlies : c.startsWith key ∧ isWordChar (c.lookahead key.length) = false := by
    simpa [Rule.keyword] using happlies
  obtain ⟨hstands, hend⟩ := happlies
  have hpasses := passes_key hstands
  cases hrun
  refine ⟨rfl, key.toList, hpasses, .word hkind ?_⟩
  rw [← String.length_toList, lookahead_of_passes hpasses] at hend
  exact (stops_iff_current (by decide)).mpr hend

/-- Where no reserved word stands, a word that begins with one goes on behind it. -/
theorem word_goes_on (h : ∀ r ∈ reservedWords, ¬ r.applies c) :
    ∀ key ∈ Printing.reserved, c.startsWith key → isWordChar (c.lookahead key.length) := by
  intro key hkey hstands
  obtain ⟨r, hr, hrkey⟩ := List.mem_filterMap.mp hkey
  have hnot := h r hr
  obtain ⟨key', kind, rfl, _⟩ := keyword_of_mem hr
  cases hrkey
  simpa [Rule.keyword, hstands] using hnot

theorem spelled_literal {r : Rule Kind} {t : Token Kind} (hr : r ∈ literals)
    (hreserved : ∀ r ∈ reservedWords, ¬ r.applies c) (happlies : r.applies c)
    (hrun : r.run c = .ok (.token t) after) :
    t.line = c.line ∧ ∃ lexeme, c.Passes lexeme after ∧
      Spelled lexeme after.rest t.kind t.value := by
  simp only [literals, List.mem_cons, List.not_mem_nil, or_false] at hr
  rcases hr with rfl | rfl | rfl <;> obtain ⟨value, hread, hlexeme⟩ := Rule.valued_run hrun <;>
    cases hlexeme
  · exact ⟨rfl, spelled_number happlies hread⟩
  · cases hread
    have hname := isName_of_run happlies (word_goes_on hreserved)
    have hspelled := Spelled.identifier hname (stops_skipWhile isWordChar c)
    rw [String.toList_ofList] at hspelled
    exact ⟨rfl, _, c.passes_skipWhile isWordChar, hspelled⟩
  · obtain ⟨s, mid, hs, hvalue⟩ := bind_ok hread
    cases hvalue
    exact ⟨rfl, spelled_string happlies hs⟩

/-- A token is on the line where its lexeme begins. -/
theorem spelled_of_step {t : Token Kind} (hne : c.rest ≠ [])
    (h : console.step c = .token t after) :
    t.line = c.line ∧ ∃ lexeme, c.Passes lexeme after ∧
      Spelled lexeme after.rest t.kind t.value := by
  obtain ⟨_, r, hselect, hrun⟩ := RuleSet.token_of_step hne h
  rw [RuleSet.select, Printing.console_rules, List.find?_append, Option.or_eq_some_iff] at hselect
  rcases hselect with hselect | ⟨hnone, hselect⟩
  · have hmem := List.mem_of_find?_eq_some hselect
    have happlies := List.find?_some hselect
    simp only [List.mem_append, (RuleSet.orderByKey_perm _).mem_iff] at hmem
    rcases hmem with hcomment | hmem | hmem
    · simp only [CommentStyle.rules, CommentStyle.slashes, Option.map_some, Option.toList_some,
        List.cons_append, List.nil_append, List.mem_cons, List.not_mem_nil, or_false] at hcomment
      rcases hcomment with rfl | rfl <;> cases hrun
    · obtain ⟨key, kind, rfl, hkind⟩ := literal_of_mem hmem
      cases hrun
      exact ⟨rfl, _, passes_key happlies, .symbol hkind⟩
    · obtain ⟨key, kind, rfl, hkind⟩ := keyword_of_mem hmem
      exact spelled_keyword hkind happlies hrun
  · have happlies := List.find?_some hselect
    refine spelled_literal (List.mem_of_find?_eq_some hselect) ?_ happlies hrun
    intro r hr
    refine List.find?_eq_none.mp hnone r ?_
    simp [(RuleSet.orderByKey_perm _).mem_iff, hr]

end Vocabulary

/-! ### Failures -/

namespace Scan

variable {α β : Type}

/-- The reader does not blame a character for its failure. -/
def Recognizes (read : Scan α) : Prop :=
  ∀ c x position line after, read c ≠ .error (.unrecognized x position line) after

theorem recognizes_of_total {read : Scan α} (h : ∀ c, ∃ a after, read c = .ok a after) :
    Recognizes read := by
  intro c x position line after hread
  obtain ⟨a, after', hok⟩ := h c
  cases hok.symm.trans hread

theorem Recognizes.bind {read : Scan α} {f : α → Scan β} (h : Recognizes read)
    (hf : ∀ a, Recognizes (f a)) : Recognizes (read >>= f) := by
  intro c x position line after
  cases hread : read c with
  | ok a mid =>
    rw [bind_of_ok hread]
    exact hf a mid x position line after
  | error e mid =>
    rw [bind_of_error hread]
    rintro ⟨⟩
    exact h c x position line after hread

theorem recognizes_pure (a : α) : Recognizes (pure a) :=
  recognizes_of_total fun c => ⟨a, c, rfl⟩

theorem recognizes_get : Recognizes get :=
  recognizes_of_total fun c => ⟨c, c, rfl⟩

theorem recognizes_modify (f : Cursor → Cursor) : Recognizes (modify f) :=
  recognizes_of_total fun c => ⟨(), f c, rfl⟩

theorem recognizes_readDigits : Recognizes readDigits :=
  recognizes_of_total fun _ => ⟨_, _, rfl⟩

theorem recognizes_readFraction : Recognizes readFraction := by
  apply recognizes_get.bind
  intro c
  split
  · exact (recognizes_modify _).bind fun _ => recognizes_readDigits.bind fun _ => recognizes_pure _
  · exact recognizes_pure none

theorem recognizes_readFloatSuffix : Recognizes readFloatSuffix := by
  apply recognizes_get.bind
  intro c
  split
  · exact (recognizes_modify _).bind fun _ => recognizes_pure true
  · exact recognizes_pure false

theorem recognizes_readNumber : Recognizes readNumber := by
  apply recognizes_get.bind
  intro c
  apply recognizes_readDigits.bind
  intro whole
  apply recognizes_readFraction.bind
  intro fraction
  apply recognizes_readFloatSuffix.bind
  intro suffixed
  dsimp only
  split
  · exact recognizes_pure _
  · intro c x position line after hread
    cases hread

theorem recognizes_readString : Recognizes readString := by
  intro c x position line after hread
  unfold readString at hread
  dsimp only at hread
  split at hread <;> cases hread

end Scan

theorem Rule.recognizes_valued {κ : Type} {applies : Cursor → Bool} {read : Scan Literal}
    (kind : Literal → κ) (h : Scan.Recognizes read) :
    Scan.Recognizes (valued applies read kind).run :=
  (Scan.recognizes_get.bind fun _ => h.bind fun _ => Scan.recognizes_pure _).bind fun _ =>
    (Scan.recognizes_modify _).bind fun _ => Scan.recognizes_pure _

namespace Vocabulary

theorem recognizes_rule : ∀ r ∈ console.rules, Scan.Recognizes r.run := by
  apply forall_rule
  · exact Scan.recognizes_of_total fun _ => ⟨_, _, rfl⟩
  · exact Scan.recognizes_of_total fun _ => ⟨_, _, rfl⟩
  · exact fun key kind _ _ _ => Scan.recognizes_of_total fun _ => ⟨_, _, rfl⟩
  · exact fun key kind _ _ _ => Scan.recognizes_of_total fun _ => ⟨_, _, rfl⟩
  · exact Rule.recognizes_valued _ Scan.recognizes_readNumber
  · exact Rule.recognizes_valued _ (Scan.recognizes_of_total fun _ => ⟨_, _, rfl⟩)
  · exact Rule.recognizes_valued _
      (Scan.recognizes_readString.bind fun _ => Scan.recognizes_pure _)

/-- Only a character where no rule applies is unrecognized. -/
theorem unrecognized_of_step {c d : Cursor} {x : Char} {position line : Nat}
    (h : console.step c = .failure (.unrecognized x position line) d) :
    x = c.current ∧ position = c.position ∧ line = c.line := by
  by_cases hend : c.atEnd
  · rw [RuleSet.step, if_pos hend] at h
    cases h
  by_cases hblank : isBlank c.current
  · rw [RuleSet.step, if_neg hend, if_pos hblank] at h
    cases h
  rw [RuleSet.step, if_neg hend, if_neg hblank] at h
  cases hselect : console.select c with
  | none =>
    rw [hselect] at h
    cases h
    exact ⟨rfl, rfl, rfl⟩
  | some r =>
    have hrecognizes := recognizes_rule r (RuleSet.select_some hselect).1 c
    rw [hselect] at h
    dsimp only at h
    split at h <;> cases h
    rename_i hrun
    exact absurd hrun (hrecognizes x position line d)

end Vocabulary

end ConsoleScript
