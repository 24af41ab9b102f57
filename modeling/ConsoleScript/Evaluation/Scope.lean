import ConsoleScript.Value.Conversion

/-!
# Scopes

A scope holds the variables that are declared at some place, each with the type it was declared
with. Nothing is ever removed from a scope, and no name is declared twice.
-/

namespace ConsoleScript

structure Variable where
  type : ValueType
  value : Value

structure Scope where
  bindings : List (String × Variable)

namespace Scope

def empty : Scope :=
  ⟨[]⟩

def find? (s : Scope) (name : String) : Option Variable :=
  s.bindings.lookup name

def contains (s : Scope) (name : String) : Bool :=
  (s.find? name).isSome

def get (s : Scope) (name : String) (line : Nat) : Except EvalError Variable :=
  match s.find? name with
  | some v => .ok v
  | none => .error (.unknownVariable name line)

def declare (s : Scope) (name : String) (v : Variable) (line : Nat) : Except EvalError Scope :=
  if s.contains name then .error (.alreadyDeclared name line)
  else .ok ⟨(name, v) :: s.bindings⟩

def assign (s : Scope) (name : String) (value : Value) (line : Nat) : Except EvalError Scope :=
  if s.contains name then
    .ok ⟨s.bindings.map fun (key, v) => (key, if key = name then { v with value } else v)⟩
  else .error (.unknownVariable name line)

def bind (s : Scope) (line : Nat) :
    List String → List ValueType → List Value → Except EvalError Scope
  | name :: names, type :: types, value :: values => do
    (← s.declare name ⟨type, value⟩ line).bind line names types values
  | _, _, _ => .ok s

theorem find?_declare {s t : Scope} {name : String} {v : Variable} {line : Nat}
    (h : s.declare name v line = .ok t) (key : String) :
    t.find? key = if key = name then some v else s.find? key := by
  unfold declare at h
  split at h
  · cases h
  · cases h
    by_cases hk : key = name
    · subst hk
      simp [find?]
    · have : (key == name) = false := by simpa using hk
      simp [find?, List.lookup_cons, this, hk]

theorem find?_assign {s t : Scope} {name : String} {value : Value} {line : Nat}
    (h : s.assign name value line = .ok t) (key : String) :
    t.find? key = (s.find? key).map fun v => if key = name then { v with value } else v := by
  unfold assign at h
  split at h
  · cases h
    simp only [find?]
    generalize s.bindings = bindings
    induction bindings with
    | nil => rfl
    | cons binding bindings ih =>
      obtain ⟨k, v⟩ := binding
      by_cases hk : key = k
      · subst hk
        simp
      · have : (key == k) = false := by simpa using hk
        simpa [List.lookup_cons, this] using ih
  · cases h

end Scope

end ConsoleScript
