import ConsoleScript.Token.RuleSet

/-!
# The words of the console language

The kinds of its tokens and the rules by which they are spelled. A reserved word ends where a word
character does not follow, so `loops` is an identifier.
-/

namespace ConsoleScript

open Text

inductive Kind where
  | endOfText
  | null
  | integer
  | float
  | string
  | identifier
  | true
  | false
  | leftParen
  | rightParen
  | leftBrace
  | rightBrace
  | if
  | else
  | loop
  | comma
  | semicolon
  | assign
  | typeOf
  | func
  | return
  | var
  | print
  | plus
  | minus
  | multiply
  | divide
deriving DecidableEq

namespace Kind

def name : Kind → String
  | endOfText => "End"
  | null => "Null"
  | integer => "Integer"
  | float => "Float"
  | string => "String"
  | identifier => "Identifier"
  | .true => "True"
  | .false => "False"
  | leftParen => "LParen"
  | rightParen => "RParen"
  | leftBrace => "LBrace"
  | rightBrace => "RBrace"
  | .if => "If"
  | .else => "Else"
  | loop => "Loop"
  | comma => "Comma"
  | semicolon => "Semicolon"
  | assign => "Assign"
  | typeOf => "TypeOf"
  | func => "Func"
  | .return => "Return"
  | var => "Var"
  | print => "Print"
  | plus => "Plus"
  | minus => "Minus"
  | multiply => "Multiply"
  | divide => "Divide"

def ofNumber : Literal → Kind
  | .float _ => float
  | _ => integer

end Kind

instance : TokenKind Kind where
  endOfText := .endOfText
  name := Kind.name

namespace Vocabulary

/-- A number starts with a digit, or with a point before a digit. -/
def startsNumber (c : Cursor) : Bool :=
  c.current.isDigit || (c.current == '.' && (c.lookahead 1).isDigit)

/-- An identifier starts with a letter, or with an underscore before a letter. -/
def startsIdentifier (c : Cursor) : Bool :=
  isAlphabetic c.current || (c.current == '_' && isAlphabetic (c.lookahead 1))

def startsString (c : Cursor) : Bool :=
  c.current == '"'

def punctuation : List (Rule Kind) :=
  [.literal "(" .leftParen, .literal ")" .rightParen, .literal "\x7b" .leftBrace,
   .literal "\x7d" .rightBrace, .literal "," .comma, .literal ";" .semicolon, .literal "=" .assign,
   .literal "+" .plus, .literal "-" .minus, .literal "*" .multiply, .literal "/" .divide]

def reservedWords : List (Rule Kind) :=
  [.keyword "typeof" .typeOf, .keyword "return" .return, .keyword "print" .print,
   .keyword "false" .false, .keyword "func" .func, .keyword "else" .else, .keyword "loop" .loop,
   .keyword "true" .true, .keyword "null" .null, .keyword "var" .var, .keyword "if" .if]

def literals : List (Rule Kind) :=
  [.valued startsNumber Scan.readNumber Kind.ofNumber,
   .valued startsIdentifier (Literal.text <$> Scan.readIdentifier) fun _ => .identifier,
   .valued startsString (Literal.text <$> Scan.readString) fun _ => .string]

def rules : List (Rule Kind) :=
  punctuation ++ reservedWords ++ literals

def ruleSet (comments : CommentStyle) : RuleSet Kind :=
  .ofRules rules comments

def console : RuleSet Kind :=
  ruleSet .slashes

end Vocabulary

end ConsoleScript
