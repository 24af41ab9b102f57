import Mathlib
import ConsoleScript.Proofs.Evaluation.Operators
import ConsoleScript.Proofs.Evaluation.StoreTyping

/-!
# Declarations of several names

A declaration fails as a whole only before it declares anything: by its type, or by its initializer,
which is evaluated once for all names. From then on it succeeds. Either its value makes a variable,
and every name that is not in the scope gets this same variable, or it makes none, and no name does.
What is wrong with a name goes to the log: it is taken, by the scope or by the same name earlier in
the list, or there is no variable for it.

`Declares` says so without the loop over the names: a name is taken if it is in the scope that the
loop starts with or earlier in the list. The loop itself asks the scope that it has come to, and the
induction moves one name after the other from the list into that scope.
-/

namespace ConsoleScript

/-! ### Types and values of declarations -/

/-- The declaration is of variables of this type, or of whatever type their value has. -/
inductive DeclaredType.Means : DeclaredType → Option ValueType → Prop where
  | inferred : Means .inferred none
  | named {type : ValueType} (h : type.Storable) : Means (.named type.name) (some type)

/-- There are no variables of the type that is named, and this is the failure. -/
inductive DeclaredType.Unusable (line : Nat) : DeclaredType → EvalError → Prop where
  | unknown {name : String} (h : name ∉ ["void", "int", "float", "bool", "string"]) :
      Unusable line (.named name) (.unknownType name line)
  | void : Unusable line (.named "void") (.invalidType .void line)

/-- What a value turns into where it is stored under a type. Integers turn into booleans, and into
floats of the same value; all else is null or has the type already. -/
inductive ValueType.Stores : ValueType → Value → Value → Prop where
  | null {type : ValueType} : Stores type .null .null
  | same {type : ValueType} {value : Value} (h : value.type = type) : Stores type value value
  | float {n : Int64} (h : n.toInt.natAbs ≤ exactFloatLimit) :
      Stores .float (.int n) (.float n.toFloat)
  | bool {n : Int64} : Stores .bool (.int n) (.bool (n ≠ 0))

/-- The variable that a declaration of this type makes of a value. -/
inductive Variable.MadeOf : Option ValueType → Value → Variable → Prop where
  | inferred {value : Value} (h : value ≠ .null) : MadeOf none value ⟨value.type, value⟩
  | declared {type : ValueType} {value fitted : Value} (h : type.Stores value fitted) :
      MadeOf (some type) value ⟨type, fitted⟩

/-- Why a declaration of this type makes no variable of a value. -/
def Variable.refusal (type : Option ValueType) (value : Value) (line : Nat) (name : String) :
    EvalError :=
  match type with
  | none => .cannotInfer name line
  | some type =>
    if type = .float ∧ value.type = .int then .inexactFloat line
    else .typeMismatch type value.type line

theorem DeclaredType.Means.resolve_eq {declared : DeclaredType} {type : Option ValueType}
    (h : declared.Means type) (line : Nat) : declared.resolve line = .ok type := by
  cases h with
  | inferred => rfl
  | named hstorable =>
    simp only [ValueType.Storable, List.mem_cons, List.not_mem_nil, or_false] at hstorable
    rcases hstorable with rfl | rfl | rfl | rfl <;> rfl

theorem DeclaredType.Unusable.resolve_eq {declared : DeclaredType} {line : Nat} {e : EvalError}
    (h : declared.Unusable line e) : declared.resolve line = .error e := by
  cases h with
  | void => rfl
  | @unknown name hname =>
    have hnone : ValueType.ofName? name = none := by
      rw [ValueType.ofName?, List.find?_eq_none]
      intro type htype hequal
      rw [decide_eq_true_eq] at hequal
      apply hname
      rw [← hequal]
      exact List.mem_map_of_mem (f := ValueType.name) htype
    simp only [resolve, resolveStorable, resolveType, hnone]
    rfl

theorem DeclaredType.means_or_unusable (declared : DeclaredType) (line : Nat) :
    (∃ type, declared.Means type) ∨ ∃ e, declared.Unusable line e := by
  cases declared with
  | inferred => exact .inl ⟨none, .inferred⟩
  | named name =>
    by_cases hname : name ∈ [.void, .int, .float, .bool, .string].map ValueType.name
    · obtain ⟨type, htype, rfl⟩ := List.mem_map.mp hname
      rcases List.mem_cons.mp htype with rfl | hstorable
      · exact .inr ⟨_, .void⟩
      · exact .inl ⟨some type, .named hstorable⟩
    · exact .inr ⟨_, .unknown hname⟩

theorem ValueType.Stores.fit_eq {type : ValueType} {value fitted : Value}
    (h : type.Stores value fitted) (line : Nat) : type.fit value line = .ok (some fitted) := by
  cases h with
  | null => simp [fit, Value.isNull]
  | same hsame => simp [fit, hsame]
  | bool => rfl
  | @float n hexact =>
    have hfloat : floatOfInt n line = .ok n.toFloat := by
      rw [floatOfInt, if_neg (Nat.not_lt.mpr hexact)]
    simp only [fit, hfloat]
    rfl

theorem ValueType.Stores.fitDeclared_eq {type : ValueType} {value fitted : Value}
    (h : type.Stores value fitted) (line : Nat) : type.fitDeclared value line = .ok fitted := by
  rw [fitDeclared, h.fit_eq]
  rfl

theorem ValueType.castsTo_iff {source target : ValueType} :
    source.castsTo target = true ↔ source = .int ∧ (target = .float ∨ target = .bool) := by
  cases source <;> cases target <;> decide

theorem ValueType.fitDeclared_refused {type : ValueType} {value : Value}
    (h : ∀ fitted, ¬ type.Stores value fitted) (line : Nat) (name : String) :
    type.fitDeclared value line = .error (Variable.refusal (some type) value line name) := by
  have hother : ¬(value.type = type || value.isNull) = true := by
    intro hstored
    rcases Bool.or_eq_true_iff.mp hstored with hsame | hnull
    · rw [decide_eq_true_eq] at hsame
      exact h value (.same hsame)
    · cases value <;> cases hnull
      exact h .null .null
  unfold fitDeclared fit
  rw [if_neg hother]
  by_cases hcast : value.type.castsTo type = true
  · -- An integer is stored under `bool`, so this is a large one under `float`.
    obtain ⟨hint, hnumber⟩ := castsTo_iff.mp hcast
    cases value with
    | int n =>
      rcases hnumber with rfl | rfl
      · have hlarge : exactFloatLimit < n.toInt.natAbs := by
          by_contra hexact
          exact h _ (.float (Nat.not_lt.mp hexact))
        simp only [floatOfInt, if_pos hlarge]
        rfl
      · exact absurd .bool (h _)
    | _ => cases hint
  · have hmismatch : ¬(type = .float ∧ value.type = .int) := by
      rintro ⟨hfloat, hint⟩
      exact hcast (castsTo_iff.mpr ⟨hint, .inl hfloat⟩)
    rw [Bool.not_eq_true] at hcast
    rw [hcast, Variable.refusal, if_neg hmismatch]
    rfl

namespace Variable

variable {type : Option ValueType} {value : Value} {v : Variable}

theorem initial_some (name : String) (type : ValueType) (value : Value) (line : Nat) :
    initial name (some type) (some value) line =
      (type.fitDeclared value line).map fun fitted => ⟨type, fitted⟩ := by
  rw [initial]
  cases type.fitDeclared value line <;> rfl

/-- Without a value a declaration makes what it makes of null. -/
theorem initial_getD (name : String) (type : Option ValueType) (value : Option Value) (line : Nat) :
    initial name type (some (value.getD .null)) line = initial name type value line := by
  cases value with
  | some value => rfl
  | none =>
    cases type with
    | none => rfl
    | some type =>
      have hnull := (ValueType.Stores.null : type.Stores .null .null).fitDeclared_eq line
      rw [Option.getD_none, initial_some, hnull]
      rfl

theorem MadeOf.initial_eq (h : MadeOf type value v) (line : Nat) (name : String) :
    initial name type (some value) line = .ok v := by
  cases h with
  | inferred hvalue =>
    cases value with
    | null => exact absurd rfl hvalue
    | _ => rfl
  | declared hstores =>
    rw [initial_some, hstores.fitDeclared_eq]
    rfl

theorem initial_refused (h : ∀ v, ¬ MadeOf type value v) (line : Nat) (name : String) :
    initial name type (some value) line = .error (refusal type value line name) := by
  cases type with
  | none =>
    have hnull : value = .null := by
      by_contra hvalue
      exact h _ (.inferred hvalue)
    rw [hnull]
    rfl
  | some type =>
    have hfit := ValueType.fitDeclared_refused (fun fitted hfitted => h _ (.declared hfitted))
      line name
    rw [initial_some, hfit]
    rfl

end Variable

/-! ### The names -/

namespace Scope

/-- The names of the list that the scope does not have, each once. -/
def newAmong (s : Scope) (names : List String) : List String :=
  (names.filter fun name => !s.contains name).eraseDups

/-- The names of the list that are taken when their turn comes, where all names before them have been
declared. A name is listed for each of its places at which it is taken. -/
def takenAmong (s : Scope) (names : List String) : List String :=
  (names.mapIdx fun i name =>
    if s.contains name ∨ name ∈ names.take i then some name else none).reduceOption

/-- The scope with a variable under a name that it does not have. -/
def add (s : Scope) (name : String) (v : Variable) : Scope :=
  ⟨(name, v) :: s.bindings⟩

/-- The scope with the same variable under several names that it does not have. -/
def addAll (s : Scope) (names : List String) (v : Variable) : Scope :=
  ⟨(names.map fun name => (name, v)).reverse ++ s.bindings⟩

theorem addAll_cons (s : Scope) (name : String) (names : List String) (v : Variable) :
    s.addAll (name :: names) v = (s.add name v).addAll names v := by
  simp [addAll, add]

theorem contains_add (s : Scope) (name : String) (v : Variable) (key : String) :
    (s.add name v).contains key = (key == name || s.contains key) := by
  change (((name, v) :: s.bindings).lookup key).isSome = _
  rw [List.lookup_cons]
  cases key == name <;> rfl

theorem declareInitial_taken {s : Scope} {name : String} (h : s.contains name = true)
    (type : Option ValueType) (value : Option Value) (line : Nat) :
    s.declareInitial name type value line = .error (.alreadyDeclared name line) := by
  rw [declareInitial, if_pos h]
  rfl

theorem declareInitial_made {s : Scope} {name : String} (h : s.contains name = false)
    {type : Option ValueType} {value : Option Value} {line : Nat} {v : Variable}
    (hv : Variable.initial name type value line = .ok v) :
    s.declareInitial name type value line = .ok (s.add name v) := by
  rw [declareInitial, if_neg (Bool.eq_false_iff.mp h), hv]
  change s.declare name v line = _
  rw [declare, if_neg (Bool.eq_false_iff.mp h)]
  rfl

theorem declareInitial_refused {s : Scope} {name : String} (h : s.contains name = false)
    {type : Option ValueType} {value : Option Value} {line : Nat} {e : EvalError}
    (he : Variable.initial name type value line = .error e) :
    s.declareInitial name type value line = .error e := by
  rw [declareInitial, if_neg (Bool.eq_false_iff.mp h), he]
  rfl

section

variable {s : Scope} {name : String}

theorem newAmong_cons_of_taken (h : s.contains name = true) (names : List String) :
    s.newAmong (name :: names) = s.newAmong names := by
  simp [newAmong, h]

theorem newAmong_cons_of_new (h : s.contains name = false) (names : List String) (v : Variable) :
    s.newAmong (name :: names) = name :: (s.add name v).newAmong names := by
  simp only [newAmong, contains_add, List.filter_cons, h, Bool.not_false, ↓reduceIte,
    List.eraseDups_cons, List.filter_filter, Bool.not_or]

/-- Behind its first name a list is met as if the scope had that name. -/
theorem takenAmong_cons {t : Scope}
    (h : ∀ other, t.contains other = true ↔ other = name ∨ s.contains other = true)
    (names : List String) :
    s.takenAmong (name :: names) =
      (if s.contains name then [name] else []) ++ t.takenAmong names := by
  have hsame (i : Nat) (other : String) :
      (s.contains other = true ∨ other = name ∨ other ∈ names.take i) ↔
        (t.contains other = true ∨ other ∈ names.take i) := by
    rw [h]
    tauto
  simp only [takenAmong, List.mapIdx_cons, List.take_zero, List.not_mem_nil, or_false,
    List.take_succ_cons, List.mem_cons, hsame]
  split <;> rfl

theorem takenAmong_cons_of_taken (h : s.contains name = true) (names : List String) :
    s.takenAmong (name :: names) = name :: s.takenAmong names := by
  have hsame (other : String) :
      s.contains other = true ↔ other = name ∨ s.contains other = true := by
    constructor
    · exact .inr
    · rintro (rfl | hother)
      · exact h
      · exact hother
  rw [takenAmong_cons hsame, if_pos h]
  rfl

theorem takenAmong_cons_of_new (h : s.contains name = false) (names : List String) (v : Variable) :
    s.takenAmong (name :: names) = (s.add name v).takenAmong names := by
  have hsame (other : String) :
      (s.add name v).contains other = true ↔ other = name ∨ s.contains other = true := by
    rw [contains_add, Bool.or_eq_true, beq_iff_eq]
  rw [takenAmong_cons hsame, if_neg (Bool.eq_false_iff.mp h)]
  rfl

end

end Scope

namespace State

/-- The state with this scope and with more failures in the log. -/
def noting (s : State) (scope : Scope) (failures : List EvalError) : State :=
  { s with scope, errors := s.errors ++ failures.toArray }

theorem noting_nil (s : State) : s.noting s.scope [] = s := by
  simp [noting]

theorem noting_log (s : State) (e : EvalError) (scope : Scope) (failures : List EvalError) :
    (s.log e).noting scope failures = s.noting scope (e :: failures) := by
  simp [noting, log]

end State

/-- From `s` on the names are declared, with this type and this value, and that leads to `t`. Where
the value makes a variable, the new names get it, and every other place in the list is logged. Where
it makes none, every place in the list is logged. -/
inductive Declares (type : Option ValueType) (value : Value) (line : Nat) (names : List String)
    (s : State) : State → Prop where
  | made {v : Variable} (h : Variable.MadeOf type value v) :
      Declares type value line names s
        (s.noting (s.scope.addAll (s.scope.newAmong names) v)
          ((s.scope.takenAmong names).map fun name => .alreadyDeclared name line))
  | refused (h : ∀ v, ¬ Variable.MadeOf type value v) :
      Declares type value line names s
        (s.noting s.scope (names.map fun name =>
          if s.scope.contains name then .alreadyDeclared name line
          else Variable.refusal type value line name))

namespace Eval

variable {type : Option ValueType} {value : Option Value} {line : Nat}

theorem declareAll_cons_of_ok {s : State} {name : String} {scope : Scope}
    (h : s.scope.declareInitial name type value line = .ok scope) (names : List String) :
    declareAll type value line (name :: names) s =
      declareAll type value line names { s with scope } := by
  rw [declareAll, get_bind, h]
  rfl

theorem declareAll_cons_of_error {s : State} {name : String} {e : EvalError}
    (h : s.scope.declareInitial name type value line = .error e) (names : List String) :
    declareAll type value line (name :: names) s =
      declareAll type value line names (s.log e) := by
  rw [declareAll, get_bind, h]
  rfl

theorem declareAll_made {v : Variable}
    (h : ∀ name, Variable.initial name type value line = .ok v) (names : List String) (s : State) :
    declareAll type value line names s =
      .ok () (s.noting (s.scope.addAll (s.scope.newAmong names) v)
        ((s.scope.takenAmong names).map fun name => .alreadyDeclared name line)) := by
  induction names generalizing s with
  | nil => exact congrArg (EStateM.Result.ok ()) s.noting_nil.symm
  | cons name names ih =>
    cases hname : s.scope.contains name with
    | true =>
      rw [declareAll_cons_of_error (Scope.declareInitial_taken hname type value line), ih,
        Scope.newAmong_cons_of_taken hname, Scope.takenAmong_cons_of_taken hname, State.noting_log]
      rfl
    | false =>
      -- From here on the scope has the name, which until now stood before the others in the list.
      rw [declareAll_cons_of_ok (Scope.declareInitial_made hname (h name)), ih,
        Scope.newAmong_cons_of_new hname names v, Scope.takenAmong_cons_of_new hname names v,
        Scope.addAll_cons]
      rfl

theorem declareAll_refused {refuse : String → EvalError}
    (h : ∀ name, Variable.initial name type value line = .error (refuse name))
    (names : List String) (s : State) :
    declareAll type value line names s =
      .ok () (s.noting s.scope (names.map fun name =>
        if s.scope.contains name then .alreadyDeclared name line else refuse name)) := by
  induction names generalizing s with
  | nil => exact congrArg (EStateM.Result.ok ()) s.noting_nil.symm
  | cons name names ih =>
    have hrefused : s.scope.declareInitial name type value line =
        .error (if s.scope.contains name then .alreadyDeclared name line else refuse name) := by
      cases hname : s.scope.contains name with
      | true => exact Scope.declareInitial_taken hname type value line
      | false => exact Scope.declareInitial_refused hname (h name)
    rw [declareAll_cons_of_error hrefused, ih, State.noting_log]
    rfl

end Eval

theorem Declares.declareAll_eq {type : Option ValueType} {value : Option Value} {line : Nat}
    {names : List String} {s t : State} (h : Declares type (value.getD .null) line names s t) :
    Eval.declareAll type value line names s = .ok () t := by
  cases h with
  | made hmade =>
    apply Eval.declareAll_made
    intro name
    rw [← Variable.initial_getD]
    exact hmade.initial_eq line name
  | refused hrefused =>
    apply Eval.declareAll_refused
    intro name
    rw [← Variable.initial_getD]
    exact Variable.initial_refused hrefused line name

theorem exists_declares (type : Option ValueType) (value : Value) (line : Nat)
    (names : List String) (s : State) : ∃ t, Declares type value line names s t := by
  by_cases h : ∃ v, Variable.MadeOf type value v
  · obtain ⟨v, hv⟩ := h
    exact ⟨_, .made hv⟩
  · exact ⟨_, .refused (not_exists.mp h)⟩

/-! ### The initializer -/

/-- The initializer, evaluated in `s`, comes to a value, and that leads to `t`. Without one the
value is null. -/
inductive Initializes (s : State) : Option Node → Value → State → Prop where
  | missing : Initializes s none .null s
  | given {n : Node} {value : Value} {t : State} (h : Eval.node n s = .ok (some value) t) :
      Initializes s (some n) value t

/-- The initializer, evaluated in `s`, comes to no value, and that leads to `t`. -/
inductive Uninitialized (s : State) : Option Node → EvalError → State → Prop where
  | failed {n : Node} {e : EvalError} {t : State} (h : Eval.node n s = .error e t) :
      Uninitialized s (some n) e t
  | valueless {n : Node} {t : State} (h : Eval.node n s = .ok none t) :
      Uninitialized s (some n) (.missingValue n.line) t

theorem initializes_or_uninitialized (s : State) (initializer : Option Node) :
    (∃ value t, Initializes s initializer value t) ∨ ∃ e t, Uninitialized s initializer e t := by
  cases initializer with
  | none => exact .inl ⟨.null, s, .missing⟩
  | some n =>
    cases h : Eval.node n s with
    | error e t => exact .inr ⟨e, t, .failed h⟩
    | ok value t =>
      cases value with
      | none => exact .inr ⟨_, t, .valueless h⟩
      | some value => exact .inl ⟨value, t, .given h⟩

namespace Eval

/-- Evaluates an initializer in the state it is met in. -/
def initializer (init : Option Node) : Eval (Option Value) := fun s =>
  Node.evalInitializer (invoke (callLimit - s.depth)) init s

theorem node_declaration (declared : DeclaredType) (names : List String) (init : Option Node)
    (line : Nat) :
    node (.declaration declared names init line) = (do
      let type ← ofExcept (declared.resolve line)
      let value ← initializer init
      declareAll type value line names
      return none) := by
  funext s
  rw [node, Node.eval]
  cases declared.resolve line <;> rfl

theorem initializer_some (n : Node) : initializer (some n) = some <$> required n.line (node n) :=
  rfl

theorem initializer_of_initializes {s t : State} {init : Option Node} {value : Value}
    (h : Initializes s init value t) :
    ∃ found, initializer init s = .ok found t ∧ found.getD .null = value := by
  cases h with
  | missing => exact ⟨none, rfl, rfl⟩
  | @given n _ _ h =>
    refine ⟨some value, ?_, rfl⟩
    rw [initializer_some, map_eq_pure_bind, bind_of_ok (required_of_ok n.line h)]
    rfl

theorem initializer_of_uninitialized {s t : State} {init : Option Node} {e : EvalError}
    (h : Uninitialized s init e t) : initializer init s = .error e t := by
  cases h with
  | @failed n _ _ h =>
    rw [initializer_some, map_eq_pure_bind, bind_of_error (required_of_error n.line h)]
  | @valueless n _ h =>
    have hmissing : required n.line (node n) s = .error (.missingValue n.line) t := by
      rw [required, bind_of_ok h]
      rfl
    rw [initializer_some, map_eq_pure_bind, bind_of_error hmissing]

variable {s t u : State} {declared : DeclaredType} {names : List String} {init : Option Node}
  {line : Nat} {type : Option ValueType} {value : Value} {e : EvalError}

theorem declaration_unusable (h : declared.Unusable line e) :
    node (.declaration declared names init line) s = .error e s := by
  rw [node_declaration, h.resolve_eq]
  rfl

theorem node_declaration_of_means (h : declared.Means type) :
    node (.declaration declared names init line) = (do
      let value ← initializer init
      declareAll type value line names
      return none) := by
  rw [node_declaration, h.resolve_eq]
  rfl

theorem declaration_uninitialized (htype : declared.Means type) (h : Uninitialized s init e t) :
    node (.declaration declared names init line) s = .error e t := by
  rw [node_declaration_of_means htype, bind_of_error (initializer_of_uninitialized h)]

theorem declaration_declares (htype : declared.Means type) (hvalue : Initializes s init value u)
    (h : Declares type value line names u t) :
    node (.declaration declared names init line) s = .ok none t := by
  obtain ⟨found, hfound, rfl⟩ := initializer_of_initializes hvalue
  rw [node_declaration_of_means htype, bind_of_ok hfound, bind_of_ok h.declareAll_eq]
  rfl

/-- A declaration fails by its type, or by its initializer, or it declares its names. -/
theorem declaration_cases (s : State) (declared : DeclaredType) (names : List String)
    (init : Option Node) (line : Nat) :
    (∃ e, declared.Unusable line e ∧
      node (.declaration declared names init line) s = .error e s) ∨
    (∃ type e t, declared.Means type ∧ Uninitialized s init e t ∧
      node (.declaration declared names init line) s = .error e t) ∨
    ∃ type value u t, declared.Means type ∧ Initializes s init value u ∧
      Declares type value line names u t ∧
      node (.declaration declared names init line) s = .ok none t := by
  rcases declared.means_or_unusable line with ⟨type, htype⟩ | ⟨e, he⟩
  · rcases initializes_or_uninitialized s init with ⟨value, u, hvalue⟩ | ⟨e, t, he⟩
    · obtain ⟨t, ht⟩ := exists_declares type value line names u
      exact .inr (.inr ⟨type, value, u, t, htype, hvalue, ht, declaration_declares htype hvalue ht⟩)
    · exact .inr (.inl ⟨type, e, t, htype, he, declaration_uninitialized htype he⟩)
  · exact .inl ⟨e, he, declaration_unusable he⟩

end Eval

/-- A declaration fails just where its type is unknown or `void`, before anything is evaluated, or
where its initializer fails or has no value, in the state behind the initializer. Otherwise it
succeeds. From the state behind the initializer it then has declared the new names, all with the same
variable, or none of them if its value makes no variable, and it has logged every place in the list
at which nothing was declared. -/
theorem declaration_outcome (s : State) (declared : DeclaredType) (names : List String)
    (initializer : Option Node) (line : Nat) :
    (∀ e t, Eval.node (.declaration declared names initializer line) s = .error e t ↔
      declared.Unusable line e ∧ t = s ∨
        (∃ type, declared.Means type) ∧ Uninitialized s initializer e t) ∧
    ∀ result t, Eval.node (.declaration declared names initializer line) s = .ok result t ↔
      result = none ∧ ∃ type value u, declared.Means type ∧ Initializes s initializer value u ∧
        Declares type value line names u t := by
  constructor
  · intro e t
    constructor
    · intro h
      rcases Eval.declaration_cases s declared names initializer line with
        ⟨_, he, hnode⟩ | ⟨type, _, _, htype, he, hnode⟩ | ⟨_, _, _, _, _, _, _, hnode⟩ <;>
        cases hnode.symm.trans h
      · exact .inl ⟨he, rfl⟩
      · exact .inr ⟨⟨type, htype⟩, he⟩
    · rintro (⟨he, rfl⟩ | ⟨⟨type, htype⟩, he⟩)
      · exact Eval.declaration_unusable he
      · exact Eval.declaration_uninitialized htype he
  · intro result t
    constructor
    · intro h
      rcases Eval.declaration_cases s declared names initializer line with
        ⟨_, _, hnode⟩ | ⟨_, _, _, _, _, hnode⟩ | ⟨type, value, u, _, htype, hvalue, ht, hnode⟩ <;>
        cases hnode.symm.trans h
      exact ⟨rfl, type, value, u, htype, hvalue, ht⟩
    · rintro ⟨rfl, type, value, u, htype, hvalue, ht⟩
      exact Eval.declaration_declares htype hvalue ht

/-- A session in which `a` is declared. -/
def startedSession : State :=
  { State.initial with scope := Scope.empty.add "a" ⟨.int, .int 1⟩ }

/-- With `a` declared, `bool a, b, b = 2` declares `b` and fails twice, and `int a, b = "x"` declares
nothing and fails twice as well. -/
theorem declaration_outcome_startedSession :
    Eval.node (.declaration (.named "bool") ["a", "b", "b"] (some (.literal (.int 2) 1)) 1)
        startedSession =
      .ok none (startedSession.noting (startedSession.scope.add "b" ⟨.bool, .bool true⟩)
        [.alreadyDeclared "a" 1, .alreadyDeclared "b" 1]) ∧
    Eval.node (.declaration (.named "int") ["a", "b"] (some (.literal (.string "x") 1)) 1)
        startedSession =
      .ok none (startedSession.noting startedSession.scope
        [.alreadyDeclared "a" 1, .typeMismatch .int .string 1]) := by
  constructor
  · apply ((declaration_outcome _ _ _ _ _).2 _ _).mpr
    have htype : (DeclaredType.named "bool").Means (some .bool) :=
      @DeclaredType.Means.named .bool (by simp [ValueType.Storable])
    exact ⟨rfl, some .bool, .int 2, _, htype, .given rfl, .made (.declared .bool)⟩
  · apply ((declaration_outcome _ _ _ _ _).2 _ _).mpr
    have htype : (DeclaredType.named "int").Means (some .int) :=
      @DeclaredType.Means.named .int (by simp [ValueType.Storable])
    refine ⟨rfl, some .int, .string "x", _, htype, .given rfl, .refused ?_⟩
    rintro v (_ | hstores)
    cases hstores with
    | same hsame => cases hsame

end ConsoleScript
