import ConsoleScript.Proofs.Printing.Program

/-!
# Writing programs down

A program is written as words with single spaces between them. Parentheses stand only where the
operators would otherwise bind differently: around an operand whose operator binds less tightly than
the one over it, around a right operand whose operator binds equally, and around any operator under
a minus. An expression that is a statement is put in parentheses, as it may begin with a name.
-/

namespace ConsoleScript.Printing

open Grammar (Tier)

/-- Punctuation, operators and the reserved words that are not values. -/
inductive Mark where
  | leftParen
  | rightParen
  | leftBrace
  | rightBrace
  | comma
  | semicolon
  | assign
  | plus
  | minus
  | multiply
  | divide
  | typeOf
  | func
  | return
  | print
  | var
  | if
  | else
  | loop

namespace Mark

def kind : Mark → Kind
  | leftParen => .leftParen
  | rightParen => .rightParen
  | leftBrace => .leftBrace
  | rightBrace => .rightBrace
  | comma => .comma
  | semicolon => .semicolon
  | assign => .assign
  | plus => .plus
  | minus => .minus
  | multiply => .multiply
  | divide => .divide
  | typeOf => .typeOf
  | func => .func
  | .return => .return
  | print => .print
  | var => .var
  | .if => .if
  | .else => .else
  | loop => .loop

def text : Mark → String
  | leftParen => "("
  | rightParen => ")"
  | leftBrace => "\x7b"
  | rightBrace => "\x7d"
  | comma => ","
  | semicolon => ";"
  | assign => "="
  | plus => "+"
  | minus => "-"
  | multiply => "*"
  | divide => "/"
  | typeOf => "typeof"
  | func => "func"
  | .return => "return"
  | print => "print"
  | var => "var"
  | .if => "if"
  | .else => "else"
  | loop => "loop"

def ofOperator : BinaryOperator → Mark
  | .add => plus
  | .subtract => minus
  | .multiply => multiply
  | .divide => divide

end Mark

namespace Constant

/-- A character inside quotes. Only the quote itself needs a backslash before it. -/
def escape (c : Char) : List Char :=
  if c = '"' then ['\\', '"'] else [c]

def text : Constant → String
  | null => "null"
  | bool b => if b then "true" else "false"
  | int n _ => String.ofList (Nat.toDigits 10 n.toInt.toNat)
  | float whole fraction => String.ofList (whole.chars ++ '.' :: fraction.chars)
  | string s _ => String.ofList ('"' :: s.toList.flatMap escape ++ ['"'])

def kind : Constant → Kind
  | null => .null
  | bool b => if b then .true else .false
  | int _ _ => .integer
  | float _ _ => .float
  | string _ _ => .string

def literal? : Constant → Option Literal
  | null | bool _ => none
  | int n _ => some (.int n)
  | float whole fraction => some (.float (whole.toFloat fraction))
  | string s _ => some (.text s)

end Constant

inductive Word where
  | mark (m : Mark)
  | name (n : Name)
  | constant (c : Constant)

namespace Word

def text : Word → String
  | mark m => m.text
  | name n => n.text
  | constant c => c.text

def token (line : Nat) : Word → Token Kind
  | mark m => ⟨m.kind, none, line⟩
  | name n => ⟨.identifier, some (.text n.text), line⟩
  | constant c => ⟨c.kind, c.literal?, line⟩

end Word

/-- Where an expression stands: in a sum, in a product, or where no operator may stand free. -/
inductive Place where
  | sum
  | product
  | unary

/-- Whether an operator of the tier may stand free in the place. -/
def Place.admits : Place → Tier → Bool
  | .sum, _ => true
  | .product, .product => true
  | _, _ => false

def leftPlace : Tier → Place
  | .sum => .sum
  | .product => .product

def rightPlace : Tier → Place
  | .sum => .product
  | .product => .unary

def tierOf : BinaryOperator → Tier
  | .add | .subtract => .sum
  | .multiply | .divide => .product

def inParens (words : List Word) : List Word :=
  .mark .leftParen :: words ++ [.mark .rightParen]

def separated (m : Mark) : List (List Word) → List Word
  | [] => []
  | [part] => part
  | part :: parts => part ++ .mark m :: separated m parts

def inBlock (statements : List (List Word)) : List Word :=
  .mark .leftBrace :: separated .semicolon statements ++ [.mark .rightBrace]

mutual

def Expr.words (place : Place) : Expr → List Word
  | .constant c => [.constant c]
  | .variable name => [.name name]
  | .call f args => .name f :: inParens (separated .comma (argumentWords args))
  | .negation operand => .mark .minus :: operand.words .unary
  | .binary left op right =>
    let free := left.words (leftPlace (tierOf op)) ++
      .mark (.ofOperator op) :: right.words (rightPlace (tierOf op))
    if place.admits (tierOf op) then free else inParens free

def argumentWords : List Expr → List (List Word)
  | [] => []
  | e :: es => e.words .sum :: argumentWords es

end

def nameWords (names : List Name) : List Word :=
  separated .comma (names.map fun n => [.name n])

def parameterWords (params : List (Name × Name)) : List Word :=
  separated .comma (params.map fun param => [.name param.1, .name param.2])

mutual

def Stmt.words : Stmt → List Word
  | .inferred first others value =>
    .mark .var :: nameWords (first :: others) ++ .mark .assign :: value.words .sum
  | .typed type first others none => .name type :: nameWords (first :: others)
  | .typed type first others (some value) =>
    .name type :: nameWords (first :: others) ++ .mark .assign :: value.words .sum
  | .assignment target value => .name target :: .mark .assign :: value.words .sum
  | .call f args => .name f :: inParens (separated .comma (argumentWords args))
  | .function returnType f params body =>
    .mark .func :: .name returnType :: .name f :: inParens (parameterWords params) ++
      inBlock (statementWords body)
  | .block body => inBlock (statementWords body)
  | .branch condition body other =>
    .mark .if :: inParens (condition.words .sum) ++ inBlock (statementWords body) ++ other.words
  | .loop count body => .mark .loop :: count.words .sum ++ inBlock (statementWords body)
  | .print value => .mark .print :: value.words .sum
  | .typeOf value => .mark .typeOf :: inParens (value.words .sum)
  | .returning value => .mark .return :: value.words .sum
  | .expression value => inParens (value.words .sum)

def Alternative.words : Alternative → List Word
  | .none => []
  | .otherwise body => .mark .else :: inBlock (statementWords body)
  | .branch condition body other =>
    .mark .else :: .mark .if :: inParens (condition.words .sum) ++
      inBlock (statementWords body) ++ other.words

def statementWords : List Stmt → List (List Word)
  | [] => []
  | s :: ss => s.words :: statementWords ss

end

def programWords (program : List Stmt) : List Word :=
  separated .semicolon (statementWords program)

def print (program : List Stmt) : String :=
  " ".intercalate ((programWords program).map Word.text)

end ConsoleScript.Printing
