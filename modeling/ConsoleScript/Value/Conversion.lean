import ConsoleScript.Evaluation.Error

/-!
# Conversions between types

A value is stored where a type is declared if it has that type or is null. Integers also turn into
floats and booleans there; a float has to have exactly the value of the integer.
-/

namespace ConsoleScript

/-- The largest number of 53 binary digits. Integers up to this magnitude have a float of the same
value. -/
def exactFloatLimit : Nat := 9007199254740991

def floatOfInt (n : Int64) (line : Nat) : Except EvalError Float :=
  if exactFloatLimit < n.toInt.natAbs then .error (.inexactFloat line) else .ok n.toFloat

def ValueType.fit (type : ValueType) (value : Value) (line : Nat) :
    Except EvalError (Option Value) :=
  if value.type = type || value.isNull then .ok (some value)
  else if !value.type.castsTo type then .ok none
  else
    match value, type with
    | .int n, .float => return some (.float (← floatOfInt n line))
    | .int n, .bool => .ok (some (.bool (n ≠ 0)))
    | _, _ => .ok none

def ValueType.fitDeclared (type : ValueType) (value : Value) (line : Nat) :
    Except EvalError Value := do
  match ← type.fit value line with
  | some fitted => return fitted
  | none => throw (.typeMismatch type value.type line)

end ConsoleScript
