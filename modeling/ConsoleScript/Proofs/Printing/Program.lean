import ConsoleScript.Syntax.Statement

/-!
# Programs that can be written down

The trees of the console language that some text stands for, without the lines of their tokens.
Names, numbers and strings carry the reason why they can be spelled, so that every program here has
a text.
-/

namespace ConsoleScript.Printing

open Text

def reserved : List String :=
  Vocabulary.reservedWords.filterMap Rule.key

def isName (text : String) : Bool :=
  Vocabulary.startsIdentifier (Cursor.start text) && text.toList.all isWordChar &&
    !reserved.contains text

structure Name where
  text : String
  valid : isName text

structure Digits where
  chars : List Char
  ne_nil : chars ≠ []
  digits : chars.all Char.isDigit

/-- The values that have a spelling. A text that ends in a backslash has none, as the backslash
would take away the meaning of the closing quote. -/
inductive Constant where
  | null
  | bool (b : Bool)
  | int (n : Int64) (nonneg : 0 ≤ n.toInt)
  | float (whole fraction : Digits)
  | string (s : String) (last : s.toList.getLast? ≠ some '\\')

/-- The double that is written as these digits before and behind a point. -/
def Digits.toFloat (whole fraction : Digits) : Float :=
  (Decimal.ofDigits? whole.chars fraction.chars).get (by
    have h := whole.ne_nil
    simp [Decimal.ofDigits?, h])

def Constant.value : Constant → Value
  | null => .null
  | bool b => .bool b
  | int n _ => .int n
  | float whole fraction => .float (whole.toFloat fraction)
  | string s _ => .string s

inductive Expr where
  | constant (c : Constant)
  | variable (name : Name)
  | call (f : Name) (args : List Expr)
  | negation (operand : Expr)
  | binary (left : Expr) (op : BinaryOperator) (right : Expr)

mutual

inductive Stmt where
  /-- Variables of the type of their value. There is at least one. -/
  | inferred (first : Name) (others : List Name) (value : Expr)
  | typed (type first : Name) (others : List Name) (value : Option Expr)
  | assignment (target : Name) (value : Expr)
  | call (f : Name) (args : List Expr)
  | function (returnType f : Name) (params : List (Name × Name)) (body : List Stmt)
  | block (body : List Stmt)
  | branch (condition : Expr) (body : List Stmt) (other : Alternative)
  | loop (count : Expr) (body : List Stmt)
  | print (value : Expr)
  | typeOf (value : Expr)
  | returning (value : Expr)
  | expression (value : Expr)

/-- What follows the first block of an `if`. -/
inductive Alternative where
  | none
  | otherwise (body : List Stmt)
  | branch (condition : Expr) (body : List Stmt) (other : Alternative)

end

/-! ### The trees -/

mutual

/-- The tree of an expression, all on line zero. -/
def Expr.toNode : Expr → Node
  | .constant c => .literal c.value 0
  | .variable name => .variable name.text 0
  | .call f args => .call f.text (argumentNodes args) 0
  | .negation operand => .negation operand.toNode 0
  | .binary left op right => .binary left.toNode op right.toNode 0

def argumentNodes : List Expr → List Node
  | [] => []
  | e :: es => e.toNode :: argumentNodes es

end

def parameterOf (param : Name × Name) : Parameter :=
  ⟨param.1.text, param.2.text⟩

mutual

@[simp] def Stmt.toNode : Stmt → Node
  | .inferred first others value =>
    .declaration .inferred (first.text :: others.map Name.text) (some value.toNode) 0
  | .typed type first others value =>
    .declaration (.named type.text) (first.text :: others.map Name.text) (value.map Expr.toNode) 0
  | .assignment target value => .assignment (.variable target.text 0) value.toNode 0
  | .call f args => .call f.text (argumentNodes args) 0
  | .function returnType f params body =>
    .function f.text returnType.text (params.map parameterOf) (.block (statementNodes body) 0) 0
  | .block body => .block (statementNodes body) 0
  | .branch condition body other =>
    .branch condition.toNode (.block (statementNodes body) 0) other.toNode? 0
  | .loop count body => .loop count.toNode (.block (statementNodes body) 0) 0
  | .print value => .print value.toNode 0
  | .typeOf value => .typeOf value.toNode 0
  | .returning value => .returning value.toNode 0
  | .expression value => value.toNode

@[simp] def Alternative.toNode? : Alternative → Option Node
  | .none => none
  | .otherwise body => some (.block (statementNodes body) 0)
  | .branch condition body other =>
    some (.branch condition.toNode (.block (statementNodes body) 0) other.toNode? 0)

@[simp] def statementNodes : List Stmt → List Node
  | [] => []
  | s :: ss => s.toNode :: statementNodes ss

end

end ConsoleScript.Printing

namespace ConsoleScript

mutual

/-- The tree with line zero everywhere. -/
def Node.unlined : Node → Node
  | .literal value _ => .literal value 0
  | .variable name _ => .variable name 0
  | .negation operand _ => .negation operand.unlined 0
  | .binary left op right _ => .binary left.unlined op right.unlined 0
  | .assignment target value _ => .assignment target.unlined value.unlined 0
  | .declaration declared names initializer _ =>
    .declaration declared names (unlinedOption initializer) 0
  | .block statements _ => .block (unlinedNodes statements) 0
  | .branch condition thenBody elseBody _ =>
    .branch condition.unlined thenBody.unlined (unlinedOption elseBody) 0
  | .loop count body _ => .loop count.unlined body.unlined 0
  | .print expr _ => .print expr.unlined 0
  | .typeOf expr _ => .typeOf expr.unlined 0
  | .returning expr _ => .returning expr.unlined 0
  | .function name returnType params body _ => .function name returnType params body.unlined 0
  | .call name arguments _ => .call name (unlinedNodes arguments) 0
  | .noOp _ => .noOp 0

def unlinedOption : Option Node → Option Node
  | none => none
  | some n => some n.unlined

def unlinedNodes : List Node → List Node
  | [] => []
  | n :: ns => n.unlined :: unlinedNodes ns

end

end ConsoleScript
