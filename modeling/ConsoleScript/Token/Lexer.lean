import ConsoleScript.Token.RuleSet

/-!
# Lexing

A lexer gives the tokens of a text one at a time. White space and comments give no token. The first
failure is final: from then on the lexer gives that failure and nothing else.
-/

namespace ConsoleScript

open Text

variable {κ : Type}

/-- What a lexer does at one place: it ends with a token or a failure, or goes on behind text that
gives no token. -/
inductive LexStep (κ : Type) where
  | token (t : Token κ) (c : Cursor)
  | failure (e : LexError) (c : Cursor)
  | skipped (c : Cursor)

namespace RuleSet

variable [TokenKind κ]

def unrecognized (c : Cursor) : LexError :=
  .unrecognized c.current c.position c.line

def step (set : RuleSet κ) (c : Cursor) : LexStep κ :=
  if c.atEnd then .token (Token.endOfText c.line) c
  else if isBlank c.current then .skipped c.skipBlanks
  else
    match set.select c with
    | none => .failure (unrecognized c) c
    | some rule =>
      match rule.run c with
      | .ok (.token t) after => .token t after
      | .ok .skip after => .skipped after
      | .error e after => .failure e after

/-- Reads the next token of a text of `size` characters. A rule that skips text has to move the
cursor; where it does not, the character counts as unrecognized. -/
def scan (set : RuleSet κ) (size : Nat) (c : Cursor) :
    EStateM.Result LexError Cursor (Token κ) :=
  match set.step c with
  | .token t after => .ok t after
  | .failure e after => .error e after
  | .skipped after =>
    if _moved : size - after.position < size - c.position then set.scan size after
    else .error (unrecognized c) c
termination_by size - c.position

end RuleSet

structure Lexer (κ : Type) where
  rules : RuleSet κ
  text : Array Char
  cursor : Cursor
  failures : List LexError

namespace Lexer

def start (rules : RuleSet κ) (text : String) : Lexer κ :=
  ⟨rules, text.toList.toArray, Cursor.start text, []⟩

def size (l : Lexer κ) : Nat :=
  l.text.size

def remaining (l : Lexer κ) : Nat :=
  l.size - l.cursor.position

def isHalted (l : Lexer κ) : Bool :=
  !l.failures.isEmpty

def fail (e : LexError) (l : Lexer κ) : Lexer κ :=
  { l with failures := l.failures ++ [e] }

/-- Goes back to a place, and forgets all but the first `kept` failures. -/
def rewind (place : Checkpoint) (kept : Nat) (l : Lexer κ) : Lexer κ :=
  { l with cursor := Cursor.restore l.text place, failures := l.failures.take kept }

variable [TokenKind κ]

/-- Gives the next token. At the end of the text that is the end token, however often it is asked
for. -/
def next : EStateM LexError (Lexer κ) (Token κ) := fun l =>
  match l.failures with
  | e :: _ => .error e l
  | [] =>
    match l.rules.scan l.size l.cursor with
    | .ok t after => .ok t { l with cursor := after }
    | .error e after => .error e (fail e { l with cursor := after })

/-- Gives what `next` would give, by going on and coming back. A failure is met again by `next`. -/
def peek : EStateM LexError (Lexer κ) (Token κ) := fun l =>
  let place := l.cursor.checkpoint
  let kept := l.failures.length
  match next l with
  | .ok t after => .ok t (after.rewind place kept)
  | .error e after => .error e (after.rewind place kept)

/-- Gives all tokens before the end token, in addition to those `taken` before, in reverse. A token
that takes no text would come back for ever, so the first such token fails. -/
def takeTokens (taken : List (Token κ)) : EStateM LexError (Lexer κ) (List (Token κ)) := fun l =>
  match next l with
  | .error e after => .error e after
  | .ok t after =>
    if t.isEnd then .ok taken.reverse after
    else if _moved : after.remaining < l.remaining then takeTokens (t :: taken) after
    else .error (RuleSet.unrecognized l.cursor) (after.fail (RuleSet.unrecognized l.cursor))
termination_by l => l.remaining

def tokens : EStateM LexError (Lexer κ) (List (Token κ)) :=
  takeTokens []

end Lexer

end ConsoleScript
