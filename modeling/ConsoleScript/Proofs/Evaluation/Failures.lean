import ConsoleScript.Proofs.Evaluation.Evolution

/-!
# How the parts of an evaluation fail

Three kinds of failure tell of a tree or a registry that makes no sense: a value that is missing, an
assignment to something else than a variable, and operands that a builtin function cannot work with.
No look-up, conversion, declaration or definition fails in one of these ways. A builtin function does
so only where it is given arguments of other types than its overload has.
-/

namespace ConsoleScript

variable {α β : Type}

def EvalError.IsPlain : EvalError → Bool
  | notAssignable _ | missingValue _ | operands _ _ => false
  | _ => true

/-- If there is a failure it is a plain one. -/
def FailsPlainly (x : Except EvalError α) : Prop :=
  ∀ e, x = .error e → e.IsPlain

namespace FailsPlainly

theorem ok (a : α) : FailsPlainly (.ok a) := by
  rintro e ⟨⟩

theorem error {e : EvalError} (h : e.IsPlain) : FailsPlainly (.error e : Except EvalError α) := by
  rintro e ⟨⟩
  exact h

theorem bind {x : Except EvalError α} {f : α → Except EvalError β} (hx : FailsPlainly x)
    (hf : ∀ a, x = .ok a → FailsPlainly (f a)) : FailsPlainly (x >>= f) := by
  cases x with
  | ok a => exact hf a rfl
  | error e => exact .error (hx e rfl)

theorem map {x : Except EvalError α} (hx : FailsPlainly x) (f : α → β) :
    FailsPlainly (f <$> x) := by
  cases x with
  | ok a => exact .ok (f a)
  | error e => exact .error (hx e rfl)

/-! ### Types and conversions -/

theorem resolveType (name : String) (line : Nat) : FailsPlainly (resolveType name line) := by
  unfold ConsoleScript.resolveType
  split
  · exact .ok _
  · exact .error rfl

theorem resolveStorable (name : String) (line : Nat) :
    FailsPlainly (resolveStorable name line) := by
  apply (resolveType name line).bind
  intro type _
  split
  · exact .error rfl
  · exact .ok _

theorem resolve (declared : DeclaredType) (line : Nat) : FailsPlainly (declared.resolve line) := by
  cases declared with
  | inferred => exact .ok none
  | named name => exact (resolveStorable name line).map some

theorem floatOfInt (n : Int64) (line : Nat) : FailsPlainly (floatOfInt n line) := by
  unfold ConsoleScript.floatOfInt
  split
  · exact .error rfl
  · exact .ok _

theorem fit (type : ValueType) (value : Value) (line : Nat) :
    FailsPlainly (type.fit value line) := by
  unfold ValueType.fit
  split
  · exact .ok _
  split
  · exact .ok _
  · split
    · exact (floatOfInt _ line).bind fun _ _ => .ok _
    · exact .ok _
    · exact .ok _

theorem fitDeclared (type : ValueType) (value : Value) (line : Nat) :
    FailsPlainly (type.fitDeclared value line) := by
  apply (fit type value line).bind
  intro fitted _
  cases fitted with
  | some fitted => exact .ok _
  | none => exact .error rfl

theorem returned (entry : Overload) (result : Option Value) (line : Nat) :
    FailsPlainly (entry.returned result line) := by
  unfold Overload.returned
  split
  · exact .ok _
  · split
    · exact .ok _
    · apply (fit _ _ line).bind
      intro fitted _
      cases fitted with
      | some fitted => exact .ok _
      | none => exact .error rfl

/-! ### Variables -/

theorem get (s : Scope) (name : String) (line : Nat) : FailsPlainly (s.get name line) := by
  unfold Scope.get
  split
  · exact .ok _
  · exact .error rfl

theorem declare (s : Scope) (name : String) (v : Variable) (line : Nat) :
    FailsPlainly (s.declare name v line) := by
  unfold Scope.declare
  split
  · exact .error rfl
  · exact .ok _

theorem assign (s : Scope) (name : String) (value : Value) (line : Nat) :
    FailsPlainly (s.assign name value line) := by
  unfold Scope.assign
  split
  · exact .ok _
  · exact .error rfl

theorem initial (name : String) (declared : Option ValueType) (value : Option Value)
    (line : Nat) : FailsPlainly (Variable.initial name declared value line) := by
  unfold Variable.initial
  split
  · exact .ok _
  · exact (fitDeclared _ _ line).bind fun _ _ => .ok _
  · exact .error rfl
  · exact .error rfl
  · exact .ok _

theorem declareInitial (s : Scope) (name : String) (declared : Option ValueType)
    (value : Option Value) (line : Nat) :
    FailsPlainly (s.declareInitial name declared value line) := by
  unfold Scope.declareInitial
  split
  · exact .error rfl
  · exact (initial name declared value line).bind fun v _ => declare s name v line

/-! ### Functions -/

theorem parameterTypes (line : Nat) (seen : List String) (params : List Parameter) :
    FailsPlainly (parameterTypes line seen params) := by
  induction params generalizing seen with
  | nil => exact .ok []
  | cons param params ih =>
    apply (resolveStorable _ line).bind
    intro type _
    split
    · exact .error rfl
    · exact (ih _).bind fun _ _ => .ok _

theorem ofDefinition (name returnType : String) (params : List Parameter) (body : Node)
    (line : Nat) : FailsPlainly (Overload.ofDefinition name returnType params body line) :=
  (resolveType returnType line).bind fun _ _ =>
    (parameterTypes line [] params).bind fun _ _ => .ok _

theorem register (r : Registry) (entry : Overload) (line : Nat) :
    FailsPlainly (r.register entry line) := by
  unfold Registry.register
  split
  · exact .error rfl
  · exact .ok _

theorem resolveCall (r : Registry) (name : String) (types : List ValueType) (line : Nat) :
    FailsPlainly (r.resolve name types line) := by
  unfold Registry.resolve
  split
  · exact .ok _
  · exact .error rfl

theorem resolveOperator (r : Registry) (op : BinaryOperator) (left right : ValueType)
    (line : Nat) : FailsPlainly (r.resolveOperator op left right line) := by
  unfold Registry.resolveOperator
  split
  · exact .ok _
  · split
    · split
      · exact .ok _
      · exact .error rfl
    · exact .error rfl

end FailsPlainly

/-! ### Builtin functions -/

def ValueType.IsNumber (type : ValueType) : Prop :=
  type = .int ∨ type = .float

theorem numeric_cases {name : String} {f : Builtin} {entry : Overload}
    (h : entry ∈ Registry.numeric name f) :
    ∃ a b, entry.body = .native f ∧ entry.params = [a, b] ∧ a.IsNumber ∧ b.IsNumber := by
  simp only [Registry.numeric, List.mem_cons, List.not_mem_nil, or_false] at h
  rcases h with rfl | rfl | rfl | rfl <;>
    exact ⟨_, _, rfl, rfl, by simp [ValueType.IsNumber], by simp [ValueType.IsNumber]⟩

/-- The builtin functions, by the types that they are registered for. -/
theorem builtins_cases {entry : Overload} (h : entry ∈ Registry.builtins.entries) :
    (∃ f a b, entry.body = .native f ∧ f ∈ [Builtin.add, .subtract, .multiply, .divide] ∧
        entry.params = [a, b] ∧ a.IsNumber ∧ b.IsNumber) ∨
      (∃ a, entry.body = .native .negate ∧ entry.params = [a] ∧ a.IsNumber) ∨
      entry = ⟨BinaryOperator.add.functionName, [.string, .object], .string,
        .native .concatenate⟩ ∨
      entry = ⟨BinaryOperator.multiply.functionName, [.string, .object], .string,
        .native .repeat⟩ := by
  have harithmetic {name : String} {f : Builtin}
      (hf : f ∈ [Builtin.add, .subtract, .multiply, .divide])
      (hentry : entry ∈ Registry.numeric name f) :
      ∃ f a b, entry.body = .native f ∧ f ∈ [Builtin.add, .subtract, .multiply, .divide] ∧
        entry.params = [a, b] ∧ a.IsNumber ∧ b.IsNumber := by
    obtain ⟨a, b, hbody, hparams, ha, hb⟩ := numeric_cases hentry
    exact ⟨f, a, b, hbody, hf, hparams, ha, hb⟩
  simp only [Registry.builtins, List.mem_append, List.mem_cons, List.not_mem_nil, or_false] at h
  rcases h with (((((hadd | rfl) | hsubtract) | hmultiply) | rfl) | hdivide) | rfl | rfl
  · exact .inl (harithmetic (by simp) hadd)
  · exact .inr (.inr (.inl rfl))
  · exact .inl (harithmetic (by simp) hsubtract)
  · exact .inl (harithmetic (by simp) hmultiply)
  · exact .inr (.inr (.inr rfl))
  · exact .inl (harithmetic (by simp) hdivide)
  · exact .inr (.inl ⟨.int, rfl, rfl, .inl rfl⟩)
  · exact .inr (.inl ⟨.float, rfl, rfl, .inr rfl⟩)

namespace FailsPlainly

theorem arithmetic (exact : Int → Int → Int) (rounded : Float → Float → Float)
    {left right : Value} (hleft : left.type.IsNumber) (hright : right.type.IsNumber) (line : Nat) :
    FailsPlainly (Builtin.arithmetic exact rounded left right line) := by
  have hint (a b : Int64) :
      FailsPlainly (Builtin.arithmetic exact rounded (.int a) (.int b) line) := by
    unfold Builtin.arithmetic
    dsimp only
    split
    · exact .ok _
    · exact .error rfl
  rcases hleft with hleft | hleft <;> rcases hright with hright | hright <;>
    cases left <;> cases hleft <;> cases right <;> cases hright
  · exact hint _ _
  · exact (floatOfInt _ line).bind fun _ _ => .ok _
  · exact (floatOfInt _ line).bind fun _ _ => .ok _
  · exact .ok _

theorem apply_numbers {f : Builtin} (hf : f ∈ [Builtin.add, .subtract, .multiply, .divide])
    {left right : Value} (hleft : left.type.IsNumber) (hright : right.type.IsNumber) (line : Nat) :
    FailsPlainly (f.apply [left, right] line) := by
  simp only [List.mem_cons, List.not_mem_nil, or_false] at hf
  rcases hf with rfl | rfl | rfl | rfl
  · exact arithmetic _ _ hleft hright line
  · exact arithmetic _ _ hleft hright line
  · exact arithmetic _ _ hleft hright line
  · unfold Builtin.apply
    apply (FailsPlainly.ok _).bind
    rintro _ ⟨⟩
    dsimp only
    split
    · exact .error rfl
    · exact arithmetic _ _ hleft hright line

theorem apply_negate {value : Value} (h : value.type.IsNumber) (line : Nat) :
    FailsPlainly (Builtin.negate.apply [value] line) := by
  rcases h with h | h <;> cases value <;> cases h
  · unfold Builtin.apply
    dsimp only
    split
    · exact .ok _
    · exact .error rfl
  · exact .ok _

theorem apply_concatenate (text : String) (right : Value) (line : Nat) :
    FailsPlainly (Builtin.concatenate.apply [.string text, right] line) := by
  change FailsPlainly (Builtin.checked _ line)
  unfold Builtin.checked
  split
  · exact .error rfl
  · exact .ok _

theorem apply_repeat (text : String) (n : Int64) (line : Nat) :
    FailsPlainly (Builtin.repeat.apply [.string text, .int n] line) := by
  change FailsPlainly (Builtin.repetition (.string text) (.int n) line)
  unfold Builtin.repetition
  dsimp only
  split
  · exact .error rfl
  · exact .ok _

end FailsPlainly

theorem apply_repeat_error {text : String} {right : Value} (h : right.type ≠ .int) (line : Nat) :
    Builtin.repeat.apply [.string text, right] line =
      .error (.operands (.notRepeatable right.type) line) := by
  cases right with
  | int n => exact absurd rfl h
  | _ => rfl

theorem type_ne_object (v : Value) : v.type ≠ .object := by
  cases v <;> rintro ⟨⟩

theorem two_of_types {args : List Value} {a b : ValueType} (h : [a, b] = args.map Value.type) :
    ∃ left right, args = [left, right] ∧ left.type = a ∧ right.type = b := by
  obtain ⟨left, rest, rfl, hleft, hrest⟩ := List.map_eq_cons_iff.mp h.symm
  obtain ⟨right, rest, rfl, hright, hnil⟩ := List.map_eq_cons_iff.mp hrest
  obtain rfl := List.map_eq_nil_iff.mp hnil
  exact ⟨left, right, rfl, hleft, hright⟩

/-- No arguments have the types of an overload for any value. -/
theorem types_ne_any (args : List Value) : args.map Value.type ≠ [.string, .object] := by
  intro h
  obtain ⟨left, right, _, _, hright⟩ := two_of_types h.symm
  exact type_ne_object right hright

/-- A builtin function fails plainly with arguments of the types it is registered for. -/
theorem native_failsPlainly {entry : Overload} {f : Builtin} {args : List Value}
    (hentry : entry ∈ Registry.builtins.entries) (hbody : entry.body = .native f)
    (hargs : entry.params = args.map Value.type) (line : Nat) :
    FailsPlainly (f.apply args line) := by
  rcases builtins_cases hentry with
    ⟨f', a, b, hf', hmem, hparams, ha, hb⟩ | ⟨a, hf', hparams, ha⟩ | rfl | rfl
  · cases hf'.symm.trans hbody
    obtain ⟨left, right, rfl, rfl, rfl⟩ := two_of_types (hparams.symm.trans hargs)
    exact .apply_numbers hmem ha hb line
  · cases hf'.symm.trans hbody
    obtain ⟨value, rest, rfl, rfl, hrest⟩ := List.map_eq_cons_iff.mp (hargs.symm.trans hparams)
    obtain rfl := List.map_eq_nil_iff.mp hrest
    exact .apply_negate ha line
  · exact absurd hargs.symm (types_ne_any args)
  · exact absurd hargs.symm (types_ne_any args)

/-- Where a builtin function that takes any value on the right of a string fails otherwise than
plainly, a string was to be repeated. -/
theorem native_any_failure {entry : Overload} {f : Builtin} {text : String} {right : Value}
    {line : Nat} {e : EvalError} (hentry : entry ∈ Registry.builtins.entries)
    (hbody : entry.body = .native f) (hparams : entry.params = [.string, .object])
    (h : f.apply [.string text, right] line = .error e) :
    e.IsPlain ∨ entry.name = BinaryOperator.multiply.functionName ∧ right.type ≠ .int ∧
      e = .operands (.notRepeatable right.type) line := by
  rcases builtins_cases hentry with
    ⟨f', a, b, hf', hmem, hparams', ha, hb⟩ | ⟨a, hf', hparams', ha⟩ | rfl | rfl
  · cases hparams.symm.trans hparams'
    rcases ha with ha | ha <;> cases ha
  · cases hparams.symm.trans hparams'
  · cases hbody
    exact .inl (FailsPlainly.apply_concatenate text right line e h)
  · cases hbody
    by_cases hint : right.type = .int
    · cases right <;> cases hint
      exact .inl (FailsPlainly.apply_repeat text _ line e h)
    · rw [apply_repeat_error hint] at h
      cases h
      exact .inr ⟨rfl, hint, rfl⟩

end ConsoleScript
