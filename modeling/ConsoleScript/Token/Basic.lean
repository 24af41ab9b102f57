import ConsoleScript.Source.Literal

/-!
# Tokens

A token has a kind, the line it starts on and, for some kinds, a literal. Kinds are a type of the
language at hand; all that is asked of them is a name for each and a kind that ends every text.
-/

namespace ConsoleScript

class TokenKind (κ : Type) extends BEq κ, LawfulBEq κ where
  endOfText : κ
  name : κ → String

structure Token (κ : Type) where
  kind : κ
  value : Option Literal
  line : Nat

namespace Token

variable {κ : Type}

def plain (kind : κ) (line : Nat) : Token κ :=
  ⟨kind, none, line⟩

def withValue (kind : κ) (value : Literal) (line : Nat) : Token κ :=
  ⟨kind, some value, line⟩

variable [TokenKind κ]

def endOfText (line : Nat) : Token κ :=
  plain TokenKind.endOfText line

def isEnd (t : Token κ) : Bool :=
  t.kind == TokenKind.endOfText

def display (t : Token κ) : String :=
  match t.value with
  | some value => TokenKind.name t.kind ++ "(" ++ value.display ++ ")"
  | none => TokenKind.name t.kind

end Token

end ConsoleScript
