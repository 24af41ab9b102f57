import ConsoleScript.Text.CharClass

/-!
# Places in a text

A cursor is a place in a text: the number of characters before it, the line it stands on and the
characters that follow. Every operation here moves it forward or not at all, but for `restore`, which
takes it back to a place that was noted before.
-/

namespace ConsoleScript

open Text

/-- A place in a text. Lines count from one. -/
structure Cursor where
  position : Nat
  line : Nat
  rest : List Char
deriving DecidableEq

structure Checkpoint where
  position : Nat
  line : Nat
deriving DecidableEq

namespace Cursor

def start (text : String) : Cursor :=
  ⟨0, 1, text.toList⟩

/-- The character that stands for the end of the text, where none is left. -/
def endMark : Char := Char.ofNat 0

def atEnd (c : Cursor) : Bool :=
  c.rest.isEmpty

def lookahead (c : Cursor) (n : Nat) : Char :=
  c.rest.getD n endMark

def current (c : Cursor) : Char :=
  c.lookahead 0

def startsWith (c : Cursor) (key : String) : Bool :=
  key.toList.isPrefixOf c.rest

def advance (c : Cursor) : Cursor :=
  match c.rest with
  | [] => c
  | x :: rest => ⟨c.position + 1, if x = '\n' then c.line + 1 else c.line, rest⟩

def advanceBy : Nat → Cursor → Cursor
  | 0, c => c
  | n + 1, c => if c.atEnd then c else advanceBy n c.advance

def run (c : Cursor) (p : Char → Bool) : List Char :=
  c.rest.takeWhile p

def skipWhile (c : Cursor) (p : Char → Bool) : Cursor :=
  c.advanceBy (c.run p).length

def skipBlanks (c : Cursor) : Cursor :=
  c.skipWhile isBlank

def skipLine (c : Cursor) : Cursor :=
  (c.skipWhile (· ≠ '\n')).advance

/-- The number of characters before the first place where `key` stands, added to `passed`. Without
such a place it is the number of all characters. -/
def distanceTo (key : List Char) (passed : Nat) : List Char → Nat
  | [] => passed
  | x :: rest =>
    if key.isPrefixOf (x :: rest) then passed else distanceTo key (passed + 1) rest

def skipPast (c : Cursor) (key : String) : Cursor :=
  c.advanceBy (distanceTo key.toList 0 c.rest + key.length)

def checkpoint (c : Cursor) : Checkpoint :=
  ⟨c.position, c.line⟩

/-- The cursor at a place of a text. What follows is looked up again by the position. -/
def restore (text : Array Char) (place : Checkpoint) : Cursor :=
  ⟨place.position, place.line, text.toList.drop place.position⟩

@[simp] theorem atEnd_iff (c : Cursor) : c.atEnd = true ↔ c.rest = [] := by
  simp [atEnd]

theorem advance_of_rest {c : Cursor} {x : Char} {rest : List Char} (h : c.rest = x :: rest) :
    c.advance = ⟨c.position + 1, if x = '\n' then c.line + 1 else c.line, rest⟩ := by
  simp [advance, h]

theorem advanceBy_of_rest_nil {c : Cursor} (n : Nat) (h : c.rest = []) : c.advanceBy n = c := by
  cases n <;> simp [advanceBy, h]

theorem advanceBy_succ_of_rest {c : Cursor} {x : Char} {rest : List Char} (n : Nat)
    (h : c.rest = x :: rest) : c.advanceBy (n + 1) = c.advance.advanceBy n := by
  simp [advanceBy, h]

@[simp] theorem rest_advanceBy (n : Nat) (c : Cursor) : (c.advanceBy n).rest = c.rest.drop n := by
  induction n generalizing c with
  | zero => rfl
  | succ n ih =>
    cases h : c.rest with
    | nil => simp [advanceBy_of_rest_nil _ h, h]
    | cons x rest => rw [advanceBy_succ_of_rest n h, ih, advance_of_rest h]; rfl

@[simp] theorem position_advanceBy (n : Nat) (c : Cursor) :
    (c.advanceBy n).position = c.position + min n c.rest.length := by
  induction n generalizing c with
  | zero => simp [advanceBy]
  | succ n ih =>
    cases h : c.rest with
    | nil => simp [advanceBy_of_rest_nil _ h]
    | cons x rest =>
      rw [advanceBy_succ_of_rest n h, ih, advance_of_rest h]
      simp only [List.length_cons]
      omega

@[simp] theorem line_advanceBy (n : Nat) (c : Cursor) :
    (c.advanceBy n).line = c.line + (c.rest.take n).count '\n' := by
  induction n generalizing c with
  | zero => simp [advanceBy]
  | succ n ih =>
    cases h : c.rest with
    | nil => simp [advanceBy_of_rest_nil _ h]
    | cons x rest =>
      rw [advanceBy_succ_of_rest n h, ih, advance_of_rest h, List.take_succ_cons, List.count_cons]
      by_cases hx : x = '\n'
      · simp [hx]
        omega
      · simp [hx]

theorem rest_skipWhile (p : Char → Bool) (c : Cursor) :
    (c.skipWhile p).rest = c.rest.dropWhile p := by
  rw [skipWhile, run, rest_advanceBy]
  induction c.rest with
  | nil => rfl
  | cons x rest ih => by_cases h : p x <;> simp [h, ih]

end Cursor

end ConsoleScript
