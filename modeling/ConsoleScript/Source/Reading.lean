import ConsoleScript.Source.Cursor
import ConsoleScript.Source.Error
import ConsoleScript.Source.Literal

/-!
# Reading words, texts and numbers

Readers take characters from the cursor on. A reader that fails leaves the cursor where it gave up.
-/

namespace ConsoleScript

open Text

abbrev Scan := EStateM LexError Cursor

namespace Scan

def readWhile (p : Char → Bool) : Scan (List Char) :=
  fun c => .ok (c.run p) (c.skipWhile p)

def readIdentifier : Scan String :=
  return String.ofList (← readWhile isWordChar)

/-- Takes a text up to its closing quote, a backslash before a quote making the quote part of the
text. Adds to what was `taken` before, in reverse, and gives the text with the number of characters
up to and including the closing quote. -/
def unquote (taken : List Char) (width : Nat) : List Char → Option (List Char × Nat)
  | [] => none
  | '"' :: _ => some (taken.reverse, width + 1)
  | '\\' :: '"' :: rest => unquote ('"' :: taken) (width + 2) rest
  | x :: rest => unquote (x :: taken) (width + 1) rest

def readString : Scan String := fun c =>
  let opened := c.advance
  match unquote [] 0 opened.rest with
  | some (chars, width) => .ok (String.ofList chars) (opened.advanceBy width)
  | none => .error (.unterminatedString c.line) (c.advanceBy c.rest.length)

/-- Reads a run of digits, in which underscores may stand anywhere and count for nothing. -/
def readDigits : Scan (List Char) :=
  return (← readWhile fun x => x.isDigit || x == '_').filter (· ≠ '_')

def readFraction : Scan (Option (List Char)) := do
  if (← get).current = '.' then
    modify Cursor.advance
    return some (← readDigits)
  else
    return none

def readFloatSuffix : Scan Bool := do
  let c ← get
  if c.current = 'f' || c.current = 'F' then
    modify Cursor.advance
    return true
  else
    return false

def integer? (digits : List Char) : Option Int64 :=
  if digits.isEmpty then none else int64? (Decimal.digitsValue digits)

/-- Reads a number. It is a float if it has a point or the suffix, and otherwise an integer. -/
def readNumber : Scan Literal := do
  let line := (← get).line
  let whole ← readDigits
  let fraction ← readFraction
  let isFloat := (← readFloatSuffix) || fraction.isSome
  let literal :=
    if isFloat then (Decimal.ofDigits? whole (fraction.getD [])).map .float
    else (integer? whole).map .int
  match literal with
  | some literal => return literal
  | none => throw (.malformedNumber (String.ofList (whole ++ fraction.elim [] ('.' :: ·))) line)

end Scan

end ConsoleScript
