import ConsoleScript.Syntax.Error
import ConsoleScript.Token.Lexer

/-!
# A window on a stream of tokens

A parser looks at one token at a time, and at most at one more behind it. The window also counts how
deeply the grammar is nested at that token, and refuses to go deeper than a fixed limit.

Tokens come from any source that gives them one by one. A lexer is one; that is the only thing the
window asks of it.
-/

namespace ConsoleScript

class TokenSource (σ : Type) (κ : outParam Type) where
  next : EStateM LexError σ (Token κ)
  /-- A bound on the number of tokens that are left. -/
  remaining : σ → Nat

instance {κ : Type} [TokenKind κ] : TokenSource (Lexer κ) κ where
  next := Lexer.next
  remaining := Lexer.remaining

def nestingLimit : Nat := 128

structure Window (σ κ : Type) where
  source : σ
  current : Token κ
  /-- The kind of the token taken last. -/
  previous : Option κ
  depth : Nat

abbrev Parse (σ κ : Type) := EStateM ParseError (Window σ κ)

variable {σ κ α β : Type} [TokenKind κ] [TokenSource σ κ]

namespace Window

def start (source : σ) : Except ParseError (Window σ κ) :=
  match TokenSource.next source with
  | .ok t after => .ok ⟨after, t, none, 0⟩
  | .error e _ => .error (.lexing e)

def line (w : Window σ κ) : Nat :=
  w.current.line

def isAt (w : Window σ κ) (kind : κ) : Bool :=
  w.current.kind == kind

def unexpected (w : Window σ κ) : ParseError :=
  .unexpected w.current.display w.line

/-- A bound on the tokens that are left, the current one included. The end of the text is none. -/
def remaining (w : Window σ κ) : Nat :=
  TokenSource.remaining w.source + if w.current.isEnd then 0 else 1

def leave (levels : Nat) (w : Window σ κ) : Window σ κ :=
  { w with depth := w.depth - levels }

end Window

namespace Parse

def isAt (kind : κ) : Parse σ κ Bool :=
  return (← get).isAt kind

def unexpected : Parse σ κ α :=
  fun w => .error w.unexpected w

/-- Takes the current token, whatever it is. If the one behind it cannot be read, the window stays
where it is. -/
def advance : Parse σ κ (Token κ) := fun w =>
  match TokenSource.next w.source with
  | .ok t after =>
    .ok w.current { w with source := after, current := t, previous := some w.current.kind }
  | .error e after => .error (.lexing e) { w with source := after }

def consume (kind : κ) : Parse σ κ (Token κ) := fun w =>
  if w.isAt kind then advance w
  else .error (.mismatch (TokenKind.name kind) (TokenKind.name w.current.kind) w.line) w

def peek : Parse σ κ (Token κ) := fun w =>
  match TokenSource.next w.source with
  | .ok t _ => .ok t w
  | .error e _ => .error (.lexing e) w

def tooDeep : Parse σ κ α :=
  fun w => .error (.nestingTooDeep nestingLimit w.line) w

def enter : Parse σ κ Unit := fun w =>
  if w.depth < nestingLimit then .ok () { w with depth := w.depth + 1 } else tooDeep w

def leave (levels : Nat) : Parse σ κ Unit :=
  modify (Window.leave levels)

def nested (p : Parse σ κ α) : Parse σ κ α := fun w =>
  match enter w with
  | .error e w => .error e w
  | .ok _ w =>
    match p w with
    | .ok a w => .ok a (w.leave 1)
    | .error e w => .error e (w.leave 1)

/-- Repeats a step until it gives a result. A step that is to be repeated has to take a token. -/
def iterate (step : α → Parse σ κ (α ⊕ β)) (a : α) : Parse σ κ β := fun w =>
  match step a w with
  | .error e after => .error e after
  | .ok (.inr b) after => .ok b after
  | .ok (.inl a) after =>
    if _taken : after.remaining < w.remaining then iterate step a after else unexpected after
termination_by w => w.remaining

end Parse

end ConsoleScript
