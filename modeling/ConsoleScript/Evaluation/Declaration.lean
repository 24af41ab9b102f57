import ConsoleScript.Evaluation.State

/-!
# Declarations

How the variables of a declaration and the parameters of a function get their types.
-/

namespace ConsoleScript

def resolveType (name : String) (line : Nat) : Except EvalError ValueType :=
  match ValueType.ofName? name with
  | some type => .ok type
  | none => .error (.unknownType name line)

def resolveStorable (name : String) (line : Nat) : Except EvalError ValueType := do
  let type ← resolveType name line
  if type = .void then throw (.invalidType type line)
  return type

def DeclaredType.resolve (declared : DeclaredType) (line : Nat) :
    Except EvalError (Option ValueType) :=
  match declared with
  | inferred => .ok none
  | named name => some <$> resolveStorable name line

/-- A new variable as its declaration makes it. Without a value it is null. An inferred type is that
of the value, and null has none to infer. -/
def Variable.initial (name : String) (declared : Option ValueType) (value : Option Value)
    (line : Nat) : Except EvalError Variable :=
  match declared, value with
  | some type, none => .ok ⟨type, .null⟩
  | some type, some value => return ⟨type, ← type.fitDeclared value line⟩
  | none, none | none, some .null => .error (.cannotInfer name line)
  | none, some value => .ok ⟨value.type, value⟩

def Scope.declareInitial (s : Scope) (name : String) (declared : Option ValueType)
    (value : Option Value) (line : Nat) : Except EvalError Scope := do
  if s.contains name then throw (.alreadyDeclared name line)
  s.declare name (← Variable.initial name declared value line) line

/-- Declares the variables one by one. One that cannot be declared is logged and keeps none of the
others from being declared. -/
def Eval.declareAll (declared : Option ValueType) (value : Option Value) (line : Nat) :
    List String → Eval Unit
  | [] => return
  | name :: names => do
    match (← get).scope.declareInitial name declared value line with
    | .ok scope => modify fun s => { s with scope }
    | .error e => modify (State.log e)
    declareAll declared value line names

def parameterTypes (line : Nat) (seen : List String) :
    List Parameter → Except EvalError (List ValueType)
  | [] => .ok []
  | param :: params => do
    let type ← resolveStorable param.typeName line
    if seen.contains param.name then throw (.alreadyDeclared param.name line)
    return type :: (← parameterTypes line (param.name :: seen) params)

def Overload.ofDefinition (name returnType : String) (params : List Parameter) (body : Node)
    (line : Nat) : Except EvalError Overload := do
  let returns ← resolveType returnType line
  let types ← parameterTypes line [] params
  return ⟨name, types, returns, .user (params.map (·.name)) body⟩

def Overload.returned (entry : Overload) (result : Option Value) (line : Nat) :
    Except EvalError Value :=
  if entry.returns = .void then .ok .null
  else
    match result with
    | none => .ok .null
    | some value => do
      match ← entry.returns.fit value line with
      | some fitted => return fitted
      | none => throw (.returnMismatch entry.name entry.returns value.type line)

end ConsoleScript
