import ConsoleScript.Value.Basic

/-!
# Syntax trees

A tree holds statements and expressions alike. Every node has the line of the token that introduces
it, which for an operator between two operands is the line of the operator.
-/

namespace ConsoleScript

inductive BinaryOperator where
  | add
  | subtract
  | multiply
  | divide
deriving DecidableEq

namespace BinaryOperator

def symbol : BinaryOperator → String
  | add => "+"
  | subtract => "-"
  | multiply => "*"
  | divide => "/"

def functionName : BinaryOperator → String
  | add => "op_Add"
  | subtract => "op_Subtract"
  | multiply => "op_Multiply"
  | divide => "op_Divide"

end BinaryOperator

def negationName : String := "op_Negate"

inductive DeclaredType where
  | inferred
  | named (name : String)
deriving DecidableEq

structure Parameter where
  typeName : String
  name : String
deriving DecidableEq

inductive Node where
  | literal (value : Value) (line : Nat)
  | variable (name : String) (line : Nat)
  | negation (operand : Node) (line : Nat)
  | binary (left : Node) (op : BinaryOperator) (right : Node) (line : Nat)
  | assignment (target value : Node) (line : Nat)
  | declaration (declared : DeclaredType) (names : List String) (initializer : Option Node)
      (line : Nat)
  | block (statements : List Node) (line : Nat)
  | branch (condition thenBody : Node) (elseBody : Option Node) (line : Nat)
  | loop (count body : Node) (line : Nat)
  | print (expr : Node) (line : Nat)
  | typeOf (expr : Node) (line : Nat)
  | returning (expr : Node) (line : Nat)
  | function (name returnType : String) (params : List Parameter) (body : Node) (line : Nat)
  | call (name : String) (arguments : List Node) (line : Nat)
  | noOp (line : Nat)

namespace Node

def line : Node → Nat
  | literal _ line | .variable _ line | negation _ line | binary _ _ _ line | assignment _ _ line
  | declaration _ _ _ line | block _ line | branch _ _ _ line | loop _ _ line | print _ line
  | typeOf _ line | returning _ line | function _ _ _ _ line | call _ _ line | noOp line => line

def isNoOp : Node → Bool
  | noOp _ => true
  | _ => false

end Node

end ConsoleScript
