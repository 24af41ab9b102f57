/-!
# Failures of lexing

Each failure carries the line on which it was met and what is needed to say what went wrong there.
-/

namespace ConsoleScript

inductive LexError where
  | unrecognized (character : Char) (position line : Nat)
  | malformedNumber (text : String) (line : Nat)
  | unterminatedString (line : Nat)
deriving DecidableEq

def onLine (line : Nat) (message : String) : String :=
  s!"Error on line {line}: {message}"

def LexError.message : LexError → String
  | unrecognized character position line =>
    onLine line s!"Tokenization failed at character '{character}', position {position}."
  | malformedNumber text line => onLine line s!"Malformed number literal '{text}'."
  | unterminatedString line => onLine line "Unterminated string literal."

end ConsoleScript
