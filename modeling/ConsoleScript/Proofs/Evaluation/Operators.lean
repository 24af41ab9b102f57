import ConsoleScript.Proofs.Evaluation.Failures
import ConsoleScript.Proofs.Evaluation.Overloads

/-!
# Operators are calls

An operator evaluates its operands and calls the overload of its function for their types, as a call
by name does. Only where `+` and `*` have a string on their left and no overload for the other
operand do the two differ: a call finds nothing then, but the operator takes the overload for any
value. In a session that overload is always there, since functions are only ever added, and it is
always the builtin one, since no definition makes a native function.
-/

namespace ConsoleScript

/-! ### The registry of a session -/

/-- The operators are found as in a new registry, and there are no other native functions. -/
structure Registry.Seeded (r : Registry) : Prop where
  found : ∀ entry ∈ builtins.entries, r.find? entry.name entry.params = some entry
  native : ∀ entry ∈ r.entries, ∀ f, entry.body = .native f → entry ∈ builtins.entries

theorem Registry.seeded_builtins : Registry.builtins.Seeded :=
  ⟨fun _ => distinct_builtins.find?_mem, fun _ hentry _ _ => hentry⟩

theorem Registry.Seeded.register {r t : Registry} (hr : r.Seeded) {name returnType : String}
    {params : List Parameter} {body : Node} {line : Nat} {entry : Overload}
    (hentry : Overload.ofDefinition name returnType params body line = .ok entry)
    (hnew : r.register entry line = .ok t) : t.Seeded := by
  constructor
  · intro old hold
    exact find?_register hnew (hr.found old hold)
  · intro other hother f hf
    rw [entries_register hnew] at hother
    rcases List.mem_append.mp hother with hother | hother
    · exact hr.native other hother f hf
    · rw [List.mem_singleton.mp hother] at hf
      obtain ⟨returns, _, hentry⟩ := bind_eq_ok.mp hentry
      obtain ⟨types, _, hentry⟩ := bind_eq_ok.mp hentry
      cases hentry
      cases hf

theorem Evolves.seeded {s t : State} (h : Evolves s t) (hs : s.registry.Seeded) :
    t.registry.Seeded := by
  induction h with
  | refl | log | write | declare | assign => exact hs
  | trans _ _ ihst ihtu => exact ihtu (ihst hs)
  | register hentry hnew => exact hs.register hentry hnew
  | call _ _ ih => exact ih hs

theorem Occurs.seeded {s t : State} (h : Occurs s t) (hs : s.registry.Seeded) :
    t.registry.Seeded := by
  induction h with
  | here h => exact h.seeded hs
  | inside hbefore _ _ ih => exact ih (hbefore.seeded hs)

theorem Operation.seeded (op : Operation) {s : State} (hs : s.registry.Seeded) :
    (op.run s).registry.Seeded ∧ ∀ t ∈ op.moments s, t.registry.Seeded :=
  op.preserves (P := fun t => t.registry.Seeded) hs (fun _ _ h => h.seeded)
    (fun _ _ h => h.seeded) fun _ _ _ h => h

theorem Reachable.seeded {s : State} (h : Reachable s) : s.registry.Seeded := by
  induction h with
  | initial => exact Registry.seeded_builtins
  | operation _ op ih => exact (op.seeded ih).1

/-- The states that operations lead to from a new evaluator, and those on the way of one more
operation, the states in which the bodies of functions are evaluated included. -/
inductive Visited : State → Prop where
  | between {s : State} (h : Reachable s) : Visited s
  | during {s t : State} (h : Reachable s) (op : Operation) (ht : t ∈ op.moments s) : Visited t

theorem Visited.seeded {s : State} (h : Visited s) : s.registry.Seeded := by
  cases h with
  | between h => exact h.seeded
  | during h op ht => exact (op.seeded h.seeded).2 s ht

/-! ### Operands and arguments -/

namespace Eval

theorem ofExcept_ok {α : Type} {x : Except EvalError α} {s t : State} {a : α}
    (h : ofExcept x s = .ok a t) : x = .ok a ∧ t = s := by
  cases x with
  | error e => cases h
  | ok b =>
    cases h
    exact ⟨rfl, rfl⟩

theorem required_ok {line : Nat} {act : Eval (Option Value)} {s t : State} {v : Value}
    (h : required line act s = .ok v t) : act s = .ok (some v) t := by
  obtain ⟨value, u, hact, h⟩ := bind_ok h
  cases value with
  | none => cases h
  | some value =>
    cases h
    exact hact

theorem required_of_ok {act : Eval (Option Value)} {s t : State} {v : Value} (line : Nat)
    (h : act s = .ok (some v) t) : required line act s = .ok v t := by
  rw [required, bind_of_ok h]
  rfl

theorem required_of_error {act : Eval (Option Value)} {s t : State} {e : EvalError} (line : Nat)
    (h : act s = .error e t) : required line act s = .error e t :=
  bind_of_error h

theorem required_congr {act act' : Eval (Option Value)} {s : State} (line : Nat)
    (h : act s = act' s) : required line act s = required line act' s :=
  bind_congr_of_ok h fun _ _ _ => rfl

theorem evolves_required {n : Node} {line : Nat} {s t : State} {v : Value}
    (h : required line (node n) s = .ok v t) : Evolves s t := by
  have hevolves := Evolves.node n s
  rwa [after, required_ok h] at hevolves

/-- Evaluates arguments in the state they are met in. -/
def arguments (nodes : List Node) : Eval (List Value) := fun s =>
  Node.evalArguments (invoke (callLimit - s.depth)) nodes s

theorem arguments_nil : arguments [] = pure [] := rfl

theorem arguments_cons (n : Node) (nodes : List Node) :
    arguments (n :: nodes) = (do
      let a ← required n.line (node n)
      return a :: (← arguments nodes)) := by
  funext s
  rw [arguments, Node.evalArguments]
  apply bind_congr_of_ok (required_congr _ rfl)
  intro a t ha
  rw [← (evolves_required ha).depth_eq]
  rfl

theorem evolves_arguments {nodes : List Node} {values : List Value} {s t : State}
    (h : arguments nodes s = .ok values t) : Evolves s t := by
  induction nodes generalizing values s with
  | nil =>
    cases h
    exact .refl _
  | cons n nodes ih =>
    rw [arguments_cons] at h
    obtain ⟨a, u, ha, h⟩ := bind_ok h
    obtain ⟨others, u', hothers, h⟩ := bind_ok h
    cases h
    exact (evolves_required ha).trans (ih hothers)

/-- Calls the overload that was found for the arguments. -/
def callFound (found : Except EvalError Overload) (args : List Value) (line : Nat) :
    Eval (Option Value) := fun s =>
  (ofExcept found >>= fun entry => some <$> invoke (callLimit - s.depth) entry args line) s

theorem callFound_native {entry : Overload} {f : Builtin} (h : entry.body = .native f)
    (args : List Value) (line : Nat) (s : State) :
    callFound (.ok entry) args line s = ofExcept (some <$> f.apply args line) s := by
  change (some <$> invoke _ entry args line) s = _
  rw [invoke_native h]
  cases f.apply args line <;> rfl

theorem node_call (name : String) (args : List Node) (line : Nat) :
    node (.call name args line) = (do
      let values ← arguments args
      callFound ((← get).registry.resolve name (values.map Value.type) line) values line) := by
  funext s
  rw [node, Node.eval]
  apply bind_congr_of_ok rfl
  intro values t hvalues
  rw [get_bind, get_bind, callFound, (evolves_arguments hvalues).depth_eq]
  rfl

theorem node_negation (operand : Node) (line : Nat) :
    node (.negation operand line) = (do
      let a ← required operand.line (node operand)
      callFound ((← get).registry.resolve negationName [a.type] line) [a] line) := by
  funext s
  rw [node, Node.eval]
  apply bind_congr_of_ok (required_congr _ rfl)
  intro a t ha
  rw [get_bind, get_bind, callFound, (evolves_required ha).depth_eq]
  rfl

theorem node_binary (l : Node) (op : BinaryOperator) (r : Node) (line : Nat) :
    node (.binary l op r line) = (do
      let a ← required l.line (node l)
      let b ← required r.line (node r)
      callFound ((← get).registry.resolveOperator op a.type b.type line) [a, b] line) := by
  funext s
  rw [node, Node.eval]
  apply bind_congr_of_ok (required_congr _ rfl)
  intro a u ha
  rw [← (evolves_required ha).depth_eq]
  apply bind_congr_of_ok (required_congr _ rfl)
  intro b t hb
  rw [get_bind, get_bind, callFound, (evolves_required hb).depth_eq]
  rfl

theorem node_negation_eq_call (operand : Node) (line : Nat) :
    node (.negation operand line) = node (.call negationName [operand] line) := by
  rw [node_negation, node_call, arguments_cons, arguments_nil]
  simp only [bind_assoc, pure_bind, List.map_cons, List.map_nil]

theorem node_call_two (name : String) (l r : Node) (line : Nat) :
    node (.call name [l, r] line) = (do
      let a ← required l.line (node l)
      let b ← required r.line (node r)
      callFound ((← get).registry.resolve name [a.type, b.type] line) [a, b] line) := by
  rw [node_call, arguments_cons, arguments_cons, arguments_nil]
  simp only [bind_assoc, pure_bind, List.map_cons, List.map_nil]

end Eval

/-! ### Where an operator and a call differ -/

/-- Evaluated in `s`, the operands of the operator come to a string and to `right`, and in the state
`t` behind them it has no overload for such operands, though it would take any on its right. -/
structure FallsBack (op : BinaryOperator) (l r : Node) (s : State) (text : String) (right : Value)
    (t : State) : Prop where
  takesAny : op = .add ∨ op = .multiply
  operands : ∃ u, Eval.node l s = .ok (some (.string text)) u ∧ Eval.node r u = .ok (some right) t
  missing : ¬ t.registry.Defines op.functionName [.string, right.type]

theorem resolve_of_find? {r : Registry} {name : String} {types : List ValueType} {entry : Overload}
    (h : r.find? name types = some entry) (line : Nat) : r.resolve name types line = .ok entry := by
  rw [Registry.resolve, h]

theorem resolveOperator_of_find? {r : Registry} {op : BinaryOperator} {left right : ValueType}
    {entry : Overload} (h : r.find? op.functionName [left, right] = some entry) (line : Nat) :
    r.resolveOperator op left right line = .ok entry := by
  rw [Registry.resolveOperator, h]

theorem resolveOperator_eq_resolve {r : Registry} {op : BinaryOperator} {left right : ValueType}
    {line : Nat} (h : op = .add ∨ op = .multiply → left = .string →
      r.Defines op.functionName [left, right]) :
    r.resolveOperator op left right line = r.resolve op.functionName [left, right] line := by
  unfold Registry.resolveOperator Registry.resolve
  cases hfind : r.find? op.functionName [left, right] with
  | some entry => rfl
  | none =>
    have hexact : ((op = .add || op = .multiply) && left = .string) = false := by
      rw [Bool.eq_false_iff]
      intro hany
      simp only [Bool.and_eq_true, Bool.or_eq_true, decide_eq_true_eq] at hany
      exact (r.find?_eq_none_iff _ _).mp hfind (h hany.1 hany.2)
    simp only [hexact, Bool.false_eq_true, ↓reduceIte]

/-- The overload by which an operator takes any value on the right of a string. -/
def anyOverload (op : BinaryOperator) (f : Builtin) : Overload :=
  ⟨op.functionName, [.string, .object], .string, .native f⟩

theorem resolveOperator_of_missing {r : Registry} {op : BinaryOperator} {f : Builtin}
    (hop : op = .add ∨ op = .multiply)
    (hfound : r.find? op.functionName [.string, .object] = some (anyOverload op f))
    {right : ValueType} (hmissing : ¬ r.Defines op.functionName [.string, right]) (line : Nat) :
    r.resolveOperator op .string right line = .ok (anyOverload op f) := by
  have hany : ((op = .add || op = .multiply) && (ValueType.string = .string)) = true := by
    simpa using hop
  unfold Registry.resolveOperator
  rw [(r.find?_eq_none_iff _ _).mpr hmissing, if_pos hany, hfound]

theorem binary_eq_call {op : BinaryOperator} {l r : Node} {s : State}
    (h : ∀ text right t, ¬ FallsBack op l r s text right t) (line : Nat) :
    Eval.node (.binary l op r line) s = Eval.node (.call op.functionName [l, r] line) s := by
  rw [Eval.node_binary, Eval.node_call_two]
  apply bind_congr_of_ok rfl
  intro a u ha
  apply bind_congr_of_ok rfl
  intro b t hb
  rw [get_bind, get_bind, resolveOperator_eq_resolve]
  intro hop hstring
  by_contra hmissing
  cases a <;> cases hstring
  exact h _ b t ⟨hop, ⟨u, Eval.required_ok ha, Eval.required_ok hb⟩, hmissing⟩

theorem FallsBack.evolves {op : BinaryOperator} {l r : Node} {s t : State} {text : String}
    {right : Value} (h : FallsBack op l r s text right t) : Evolves s t := by
  obtain ⟨u, hleft, hright⟩ := h.operands
  exact (Eval.evolves_required (Eval.required_of_ok 0 hleft)).trans
    (Eval.evolves_required (Eval.required_of_ok 0 hright))

theorem FallsBack.call_fails {op : BinaryOperator} {l r : Node} {s t : State} {text : String}
    {right : Value} (h : FallsBack op l r s text right t) (line : Nat) :
    Eval.node (.call op.functionName [l, r] line) s =
      .error (.noOverload op.functionName [.string, right.type] line) t := by
  obtain ⟨_, ⟨u, hleft, hright⟩, hmissing⟩ := h
  rw [Eval.node_call_two, bind_of_ok (Eval.required_of_ok _ hleft),
    bind_of_ok (Eval.required_of_ok _ hright), get_bind, Registry.resolve]
  have hnone := (t.registry.find?_eq_none_iff _ _).mpr hmissing
  have hstring : (Value.string text).type = .string := rfl
  rw [hstring, hnone]
  rfl

theorem FallsBack.binary_eq {op : BinaryOperator} {l r : Node} {s t : State} {text : String}
    {right : Value} (h : FallsBack op l r s text right t) (line : Nat) :
    Eval.node (.binary l op r line) s =
      Eval.callFound (t.registry.resolveOperator op .string right.type line) [.string text, right]
        line t := by
  obtain ⟨_, ⟨u, hleft, hright⟩, _⟩ := h
  rw [Eval.node_binary, bind_of_ok (Eval.required_of_ok _ hleft),
    bind_of_ok (Eval.required_of_ok _ hright)]
  rfl

/-- No function that takes any value on the right of a string looks a function up. -/
theorem apply_any_ne_noOverload {f : Builtin} (hf : f = .concatenate ∨ f = .repeat) (text : String)
    (right : Value) (line : Nat) (name : String) (types : List ValueType) (line' : Nat) :
    f.apply [.string text, right] line ≠ .error (.noOverload name types line') := by
  rcases hf with rfl | rfl
  · change Builtin.checked _ line ≠ _
    unfold Builtin.checked
    split <;> rintro ⟨⟩
  · by_cases hint : right.type = .int
    · cases right <;> cases hint
      change (if _ then _ else _) ≠ _
      split <;> rintro ⟨⟩
    · rw [apply_repeat_error hint]
      rintro ⟨⟩

theorem callFound_any_ne {op : BinaryOperator} {f : Builtin}
    (hf : f = .concatenate ∨ f = .repeat) {text : String} {right : Value} {line line' : Nat}
    {name : String} {types : List ValueType} {t u : State} :
    Eval.callFound (.ok (anyOverload op f)) [.string text, right] line t ≠
      .error (.noOverload name types line') u := by
  intro h
  rw [Eval.callFound_native rfl] at h
  cases happly : f.apply [.string text, right] line with
  | ok v =>
    rw [happly] at h
    cases h
  | error e =>
    rw [happly] at h
    cases h
    exact apply_any_ne_noOverload hf text right line name types line' happly

/-- In whatever state it is evaluated, an operator between two operands gives what the call of its
function with these operands gives, and it leaves the same state. The one exception is a string on
the left of `+` or `*` for which there is no overload: the call fails then, whereas in the states of
a session the operator joins or repeats the string and never misses an overload. Negation is a call
without exception. -/
theorem operator_eq_call (s : State) :
    (∀ (op : BinaryOperator) (l r : Node) (line : Nat),
      (∀ text right t, ¬ FallsBack op l r s text right t) →
        Eval.node (.binary l op r line) s = Eval.node (.call op.functionName [l, r] line) s) ∧
    (∀ (op : BinaryOperator) (l r : Node) (line : Nat) (text : String) (right : Value) (t : State),
      FallsBack op l r s text right t →
        Eval.node (.call op.functionName [l, r] line) s =
          .error (.noOverload op.functionName [.string, right.type] line) t ∧
        (Visited s → ∃ f, (op = .add ∧ f = .concatenate ∨ op = .multiply ∧ f = .repeat) ∧
          anyOverload op f ∈ Registry.builtins.entries ∧
          Eval.node (.binary l op r line) s =
            (some <$>
              invoke (callLimit - t.depth) (anyOverload op f) [.string text, right] line) t ∧
          ∀ name types line' u,
            Eval.node (.binary l op r line) s ≠ .error (.noOverload name types line') u)) ∧
    ∀ (operand : Node) (line : Nat),
      Eval.node (.negation operand line) s = Eval.node (.call negationName [operand] line) s := by
  refine ⟨fun op l r line h => binary_eq_call h line, ?_, ?_⟩
  · intro op l r line text right t h
    refine ⟨h.call_fails line, ?_⟩
    intro hs
    obtain ⟨f, hf, hseed⟩ : ∃ f, (op = .add ∧ f = .concatenate ∨ op = .multiply ∧ f = .repeat) ∧
        anyOverload op f ∈ Registry.builtins.entries := by
      rcases h.takesAny with rfl | rfl
      · exact ⟨.concatenate, .inl ⟨rfl, rfl⟩, by simp [Registry.builtins, anyOverload]⟩
      · exact ⟨.repeat, .inr ⟨rfl, rfl⟩, by simp [Registry.builtins, anyOverload]⟩
    have hfound := (h.evolves.seeded hs.seeded).found _ hseed
    have hbinary := h.binary_eq line
    rw [resolveOperator_of_missing h.takesAny hfound h.missing] at hbinary
    refine ⟨f, hf, hseed, hbinary, ?_⟩
    intro name types line' u herror
    rw [hbinary] at herror
    exact callFound_any_ne (hf.imp And.right And.right) herror
  · intro operand line
    rw [Eval.node_negation_eq_call]

/-- In a new session `"a" + 2` joins the two, the call of the function of `+` with them fails, and
`"a" - 2` is such a call. -/
theorem operator_eq_call_initial :
    FallsBack .add (.literal (.string "a") 1) (.literal (.int 2) 1) .initial "a" (.int 2) .initial ∧
    Eval.node (.call "op_Add" [.literal (.string "a") 1, .literal (.int 2) 1] 1) .initial =
      .error (.noOverload "op_Add" [.string, .int] 1) .initial ∧
    Eval.node (.binary (.literal (.string "a") 1) .add (.literal (.int 2) 1) 1) .initial ≠
      .error (.noOverload "op_Add" [.string, .int] 1) .initial ∧
    Eval.node (.binary (.literal (.string "a") 1) .subtract (.literal (.int 2) 1) 1) .initial =
      Eval.node (.call "op_Subtract" [.literal (.string "a") 1, .literal (.int 2) 1] 1)
        .initial := by
  have hback : FallsBack .add (.literal (.string "a") 1) (.literal (.int 2) 1) .initial "a" (.int 2)
      .initial :=
    ⟨.inl rfl, ⟨.initial, rfl, rfl⟩, (Registry.find?_eq_none_iff _ _ _).mp (by rfl)⟩
  obtain ⟨hagree, hdiffer, _⟩ := operator_eq_call .initial
  obtain ⟨hcall, hoperator⟩ := hdiffer _ _ _ 1 _ _ _ hback
  obtain ⟨f, _, _, _, hne⟩ := hoperator (.between (.initial .empty))
  refine ⟨hback, hcall, hne _ _ _ _, hagree .subtract _ _ 1 ?_⟩
  intro text right t h
  rcases h.takesAny with h | h <;> cases h

end ConsoleScript
