import ConsoleScript.Source.Error

/-!
# Failures of parsing

The first failure ends the parse. A failure to read a token is handed on as it is.
-/

namespace ConsoleScript

inductive ParseError where
  | lexing (e : LexError)
  | mismatch (expected found : String) (line : Nat)
  | unexpected (found : String) (line : Nat)
  | nestingTooDeep (limit line : Nat)
  | missingInitializer (names : List String) (line : Nat)
deriving DecidableEq

def ParseError.message : ParseError → String
  | lexing e => e.message
  | mismatch expected found line =>
    onLine line s!"Token mismatch. Expected {expected}, found {found}."
  | unexpected found line => onLine line s!"Unexpected token {found}."
  | nestingTooDeep limit line => onLine line s!"Nesting limit of {limit} exceeded."
  | missingInitializer names line =>
    let list := ", ".intercalate names
    onLine line s!"Cannot infer the type of implicit variables {list} without a value."

end ConsoleScript
