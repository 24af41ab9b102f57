import ConsoleScript.Source.Error
import ConsoleScript.Value.Basic

/-!
# Failures of evaluation

A failure ends the statement it happens in, and the evaluation goes on with the next. Every failure
carries the line that it is reported for.
-/

namespace ConsoleScript

inductive OperandError where
  | notTwo (count : Nat)
  | notNumbers (left right : ValueType)
  | notString (found : ValueType)
  | notRepeatable (found : ValueType)
  | notOneNumber
deriving DecidableEq

def OperandError.message : OperandError → String
  | notTwo count => s!"expected 2 operands, got {count}"
  | notNumbers left right => "expected numbers, found " ++ left.name ++ " and " ++ right.name
  | notString found => "expected string, found " ++ found.name
  | notRepeatable found =>
    "a string can only be repeated an int number of times, found " ++ found.name
  | notOneNumber => "expected one number"

inductive EvalError where
  | unknownVariable (name : String) (line : Nat)
  | alreadyDeclared (name : String) (line : Nat)
  | cannotInfer (name : String) (line : Nat)
  | unknownType (name : String) (line : Nat)
  | invalidType (type : ValueType) (line : Nat)
  | typeMismatch (expected found : ValueType) (line : Nat)
  | noOverload (name : String) (types : List ValueType) (line : Nat)
  | alreadyDefined (name : String) (types : List ValueType) (line : Nat)
  | returnMismatch (name : String) (expected found : ValueType) (line : Nat)
  | notBoolean (found : ValueType) (line : Nat)
  | notLoopCount (found : ValueType) (line : Nat)
  | notAssignable (line : Nat)
  | missingValue (line : Nat)
  | operands (cause : OperandError) (line : Nat)
  | divisionByZero (line : Nat)
  | overflow (line : Nat)
  /-- An integer has no float of exactly the same value. -/
  | inexactFloat (line : Nat)
  | stringTooLong (limit line : Nat)
  | callsTooDeep (limit line : Nat)
deriving DecidableEq

namespace EvalError

def line : EvalError → Nat
  | unknownVariable _ line | alreadyDeclared _ line | cannotInfer _ line | unknownType _ line
  | invalidType _ line | typeMismatch _ _ line | noOverload _ _ line | alreadyDefined _ _ line
  | returnMismatch _ _ _ line | notBoolean _ line | notLoopCount _ line | notAssignable line
  | missingValue line | operands _ line | divisionByZero line | overflow line | inexactFloat line
  | stringTooLong _ line | callsTooDeep _ line => line

def description : EvalError → String
  | unknownVariable name _ => "Variable '" ++ name ++ "' has not been declared."
  | alreadyDeclared name _ => "Variable '" ++ name ++ "' already declared."
  | cannotInfer name _ => "There is no valid type for the value of '" ++ name ++ "'."
  | unknownType name _ => "Unknown type '" ++ name ++ "'."
  | invalidType type _ => "Type '" ++ type.name ++ "' cannot be used here."
  | typeMismatch expected found _ =>
    "Type mismatch. Expected " ++ expected.name ++ ", found " ++ found.name ++ "."
  | noOverload name types _ =>
    "No overload of '" ++ name ++ "' accepts (" ++ ValueType.nameList types ++ ")."
  | alreadyDefined name types _ =>
    "Function '" ++ name ++ "(" ++ ValueType.nameList types ++ ")' is already defined."
  | returnMismatch name expected found _ =>
    "Function '" ++ name ++ "' must return " ++ expected.name ++ ", but returned " ++
      found.name ++ "."
  | notBoolean found _ => "Condition must be a bool, found " ++ found.name ++ "."
  | notLoopCount found _ => "Loops can only be given an int, found " ++ found.name ++ "."
  | notAssignable _ => "You can only assign values to variables."
  | missingValue _ => "Value missing."
  | operands cause _ => "Type error: " ++ cause.message ++ "."
  | divisionByZero _ => "Division by zero."
  | overflow _ => "Integer overflow while trying to compute result."
  | inexactFloat _ => "Integer is too large to convert to float."
  | stringTooLong limit _ => s!"Strings cannot be longer than {limit} bytes."
  | callsTooDeep limit _ => s!"Call depth limit of {limit} exceeded."

def message (e : EvalError) : String :=
  onLine e.line e.description

end EvalError

end ConsoleScript
