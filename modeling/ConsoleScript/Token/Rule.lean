import ConsoleScript.Source.Reading
import ConsoleScript.Token.Basic

/-!
# Lexical rules

A rule says where it applies and how to read what stands there. A rule with a key applies where its
key stands, and the cursor moves past the key once the rule has read its lexeme. A rule without a
key moves the cursor itself.
-/

namespace ConsoleScript

open Text

inductive Lexeme (κ : Type) where
  | token (t : Token κ)
  | skip

structure Rule (κ : Type) where
  key : Option String
  applies : Cursor → Bool
  read : Scan (Lexeme κ)

namespace Rule

variable {κ : Type}

def keyLength (r : Rule κ) : Nat :=
  r.key.elim 0 String.length

def run (r : Rule κ) : Scan (Lexeme κ) := do
  let lexeme ← r.read
  modify (Cursor.advanceBy r.keyLength)
  return lexeme

def plainToken (kind : κ) : Scan (Lexeme κ) :=
  return .token (Token.plain kind (← get).line)

def keyed (key : String) (read : Scan (Lexeme κ)) : Rule κ :=
  ⟨some key, (·.startsWith key), read⟩

def literal (key : String) (kind : κ) : Rule κ :=
  keyed key (plainToken kind)

/-- A reserved word: the key where no word character follows it. -/
def keyword (key : String) (kind : κ) : Rule κ :=
  ⟨some key, fun c => c.startsWith key && !isWordChar (c.lookahead key.length), plainToken kind⟩

def keyless (applies : Cursor → Bool) (read : Scan (Lexeme κ)) : Rule κ :=
  ⟨none, applies, read⟩

def valued (applies : Cursor → Bool) (read : Scan Literal) (kind : Literal → κ) : Rule κ :=
  keyless applies do
    let line := (← get).line
    let value ← read
    return .token (Token.withValue (kind value) value line)

def lineComment (opening : String) : Rule κ :=
  keyless (·.startsWith opening) do
    modify Cursor.skipLine
    return .skip

/-- A comment from `opening` to the next `closing`, or to the end of the text. -/
def blockComment (opening closing : String) : Rule κ :=
  keyless (·.startsWith opening) do
    modify fun c => (c.advanceBy opening.length).skipPast closing
    return .skip

def display (r : Rule κ) : String :=
  let key := match r.key with
    | some key => "Some(" ++ quoted key ++ ")"
    | none => "None"
  "TokenMapping \x7b key: " ++ key ++ ", .. \x7d"

end Rule

end ConsoleScript
