import ConsoleScript.Evaluation.Builtin
import ConsoleScript.Syntax.Tree

/-!
# The registry of functions

A function is known by its name and the types of its parameters; functions of one name are overloads
of it. The registry keeps them in the order of registration and forgets none. Operators are
functions too, under names of their own.
-/

namespace ConsoleScript

inductive FunctionBody where
  | native (f : Builtin)
  | user (params : List String) (body : Node)

structure Overload where
  name : String
  params : List ValueType
  returns : ValueType
  body : FunctionBody

structure Registry where
  entries : List Overload

namespace Registry

def empty : Registry :=
  ⟨[]⟩

def numeric (name : String) (f : Builtin) : List Overload :=
  [⟨name, [.int, .int], .int, .native f⟩, ⟨name, [.float, .float], .float, .native f⟩,
   ⟨name, [.float, .int], .float, .native f⟩, ⟨name, [.int, .float], .float, .native f⟩]

/-- The operators. A string takes any value on its right. -/
def builtins : Registry :=
  ⟨numeric BinaryOperator.add.functionName .add ++
    [⟨BinaryOperator.add.functionName, [.string, .object], .string, .native .concatenate⟩] ++
    numeric BinaryOperator.subtract.functionName .subtract ++
    numeric BinaryOperator.multiply.functionName .multiply ++
    [⟨BinaryOperator.multiply.functionName, [.string, .object], .string, .native .repeat⟩] ++
    numeric BinaryOperator.divide.functionName .divide ++
    [⟨negationName, [.int], .int, .native .negate⟩,
     ⟨negationName, [.float], .float, .native .negate⟩]⟩

def overloads (r : Registry) (name : String) : List Overload :=
  r.entries.filter (·.name = name)

def contains (r : Registry) (name : String) : Bool :=
  r.entries.any (·.name = name)

def find? (r : Registry) (name : String) (types : List ValueType) : Option Overload :=
  r.entries.find? fun entry => entry.name = name && entry.params = types

def resolve (r : Registry) (name : String) (types : List ValueType) (line : Nat) :
    Except EvalError Overload :=
  match r.find? name types with
  | some entry => .ok entry
  | none => .error (.noOverload name types line)

def register (r : Registry) (entry : Overload) (line : Nat) : Except EvalError Registry :=
  match r.find? entry.name entry.params with
  | some _ => .error (.alreadyDefined entry.name entry.params line)
  | none => .ok ⟨r.entries ++ [entry]⟩

/-- The overload that an operator runs. Where no overload has exactly the types of the operands,
`+` and `*` with a string on the left run the one that takes any value on the right. -/
def resolveOperator (r : Registry) (op : BinaryOperator) (left right : ValueType) (line : Nat) :
    Except EvalError Overload :=
  match r.find? op.functionName [left, right] with
  | some entry => .ok entry
  | none =>
    if (op = .add || op = .multiply) && left = .string then
      match r.find? op.functionName [.string, .object] with
      | some entry => .ok entry
      | none => .error (.noOverload op.functionName [left, right] line)
    else .error (.noOverload op.functionName [left, right] line)

theorem entries_register {r t : Registry} {entry : Overload} {line : Nat}
    (h : r.register entry line = .ok t) : t.entries = r.entries ++ [entry] := by
  unfold register at h
  split at h
  · cases h
  · cases h
    rfl

theorem find?_register {r t : Registry} {entry old : Overload} {line : Nat} {name : String}
    {types : List ValueType} (h : r.register entry line = .ok t)
    (hold : r.find? name types = some old) : t.find? name types = some old := by
  rw [find?] at hold ⊢
  rw [entries_register h, List.find?_append, hold]
  rfl

end Registry

end ConsoleScript
