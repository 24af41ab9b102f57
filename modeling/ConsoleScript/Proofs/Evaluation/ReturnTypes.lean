import ConsoleScript.Proofs.Evaluation.Operators
import ConsoleScript.Proofs.Evaluation.StoreTyping

/-!
# Declared return types

What a call gives has the type that the function declares. A builtin function gives a value of just
that type. A user function may give null instead, and always does where it declares `void`, whatever
its body is: the result of the body is fitted to the declared type last.
-/

namespace ConsoleScript

/-- What a call of the function may give. -/
structure Overload.Honours (entry : Overload) (v : Value) : Prop where
  native : ∀ f, entry.body = .native f → v.type = entry.returns ∧ v ≠ .null
  void : ∀ params body, entry.body = .user params body → entry.returns = .void → v = .null
  user : ∀ params body, entry.body = .user params body → entry.returns ≠ .void →
    v = .null ∨ v.type = entry.returns

/-- In this state an operator or a call by name takes the overload for the arguments. -/
inductive State.Selects (s : State) : Overload → List Value → Prop where
  | operator {op : BinaryOperator} {a b : Value} {line : Nat} {entry : Overload}
      (h : s.registry.resolveOperator op a.type b.type line = .ok entry) : Selects s entry [a, b]
  | call {name : String} {args : List Value} {line : Nat} {entry : Overload}
      (h : s.registry.resolve name (args.map Value.type) line = .ok entry) : Selects s entry args

/-- The nodes that call a function: operators and calls. -/
def Node.isApplication : Node → Bool
  | negation _ _ | binary _ _ _ _ | call _ _ _ => true
  | _ => false

/-! ### Builtin functions -/

/-- The type of what a builtin function makes of arguments of these types. -/
def Builtin.resultType (types : List ValueType) : ValueType :=
  if .string ∈ types then .string else if .float ∈ types then .float else .int

namespace Builtin

theorem returns_builtins :
    ∀ entry ∈ Registry.builtins.entries, entry.returns = resultType entry.params := by
  decide

theorem resultType_ne_null (types : List ValueType) : resultType types ≠ .null := by
  unfold resultType
  split
  · rintro ⟨⟩
  · split <;> rintro ⟨⟩

theorem two_ok {args : List Value} {line : Nat} {left right : Value}
    (h : two args line = .ok (left, right)) : args = [left, right] := by
  unfold two at h
  split at h <;> cases h
  rfl

theorem arithmetic_type {exact : Int → Int → Int} {rounded : Float → Float → Float}
    {left right v : Value} {line : Nat} (h : arithmetic exact rounded left right line = .ok v) :
    v.type = resultType [left.type, right.type] := by
  unfold arithmetic at h
  split at h
  · split at h <;> cases h
    rfl
  · cases h
    rfl
  · obtain ⟨x, _, hx⟩ := bind_eq_ok.mp h
    cases hx
    rfl
  · obtain ⟨x, _, hx⟩ := bind_eq_ok.mp h
    cases hx
    rfl
  · cases h

theorem join_type {left right v : Value} {line : Nat} (h : join left right line = .ok v) :
    v.type = resultType [left.type, right.type] := by
  unfold join at h
  split at h
  · unfold checked at h
    split at h <;> cases h
    simp [resultType, Value.type]
  · cases h

theorem repetition_type {left right v : Value} {line : Nat}
    (h : repetition left right line = .ok v) : v.type = resultType [left.type, right.type] := by
  unfold repetition at h
  split at h
  · dsimp only at h
    split at h <;> cases h
    simp [resultType, Value.type]
  · cases h
  · cases h

theorem apply_type {f : Builtin} {args : List Value} {line : Nat} {v : Value}
    (h : f.apply args line = .ok v) : v.type = resultType (args.map Value.type) := by
  have htwo {act : Value × Value → Except EvalError Value}
      (hact : ∀ left right, act (left, right) = .ok v → v.type = resultType [left.type, right.type])
      (h : (two args line >>= act) = .ok v) : v.type = resultType (args.map Value.type) := by
    obtain ⟨⟨left, right⟩, hargs, h⟩ := bind_eq_ok.mp h
    rw [two_ok hargs]
    exact hact left right h
  cases f with
  | add => exact htwo (fun _ _ => arithmetic_type) h
  | subtract => exact htwo (fun _ _ => arithmetic_type) h
  | multiply => exact htwo (fun _ _ => arithmetic_type) h
  | divide =>
    refine htwo (fun left right h => ?_) h
    dsimp only at h
    split at h
    · cases h
    · exact arithmetic_type h
  | concatenate => exact htwo (fun _ _ => join_type) h
  | «repeat» => exact htwo (fun _ _ => repetition_type) h
  | negate =>
    unfold apply at h
    dsimp only at h
    split at h
    · split at h <;> cases h
      rfl
    · cases h
      rfl
    · cases h

end Builtin

/-- A builtin function gives what it declares if an operator or a call took it for its arguments. -/
theorem native_honours {s : State} (hs : s.registry.Seeded) {entry : Overload} {args : List Value}
    (hselects : s.Selects entry args) {f : Builtin} (hbody : entry.body = .native f) {line : Nat}
    {v : Value} (hv : f.apply args line = .ok v) : v.type = entry.returns ∧ v ≠ .null := by
  have hmem : entry ∈ s.registry.entries := by
    cases hselects with
    | operator h => exact (resolveOperator_ok h).1
    | call h => exact (resolve_ok h).1
  have hparams : Builtin.resultType (args.map Value.type) = Builtin.resultType entry.params := by
    cases hselects with
    | operator h =>
      rcases (resolveOperator_ok h).2.2 with hparams | ⟨hleft, hparams⟩
      · rw [hparams]
        rfl
      · rw [hparams]
        simp [Builtin.resultType, hleft]
    | call h => rw [(resolve_ok h).2]
  have htype : v.type = entry.returns := by
    rw [Builtin.apply_type hv, hparams,
      Builtin.returns_builtins entry (hs.native entry hmem f hbody)]
  refine ⟨htype, ?_⟩
  rintro rfl
  exact Builtin.resultType_ne_null _ (Builtin.apply_type hv).symm

/-! ### User functions -/

theorem returned_void {entry : Overload} {result : Option Value} {line : Nat} {v : Value}
    (hvoid : entry.returns = .void) (h : entry.returned result line = .ok v) : v = .null := by
  unfold Overload.returned at h
  rw [if_pos hvoid] at h
  cases h
  rfl

theorem returned_fits {entry : Overload} {result : Option Value} {line : Nat} {v : Value}
    (hvoid : entry.returns ≠ .void) (h : entry.returned result line = .ok v) :
    v = .null ∨ v.type = entry.returns := by
  unfold Overload.returned at h
  rw [if_neg hvoid] at h
  cases result with
  | none =>
    cases h
    exact .inl rfl
  | some value =>
    obtain ⟨fitted, hfit, h⟩ := bind_eq_ok.mp h
    cases fitted with
    | none => cases h
    | some fitted =>
      cases h
      exact fit_fits hfit

/-- Whatever the body did, the last step of a call is to fit its result. -/
theorem invoke_user_returned {entry : Overload} {params : List String} {body : Node} {calls : Nat}
    {args : List Value} {line : Nat} {s t : State} {v : Value}
    (hbody : entry.body = .user params body) (h : invoke calls entry args line s = .ok v t) :
    ∃ result, entry.returned result line = .ok v := by
  cases calls with
  | zero =>
    rw [invoke_user_zero hbody] at h
    cases h
  | succ calls =>
    rw [invoke_user_succ hbody] at h
    obtain ⟨frame, _, _, h⟩ := bind_ok h
    obtain ⟨result, _, _, h⟩ := bind_ok h
    exact ⟨result, (Eval.ofExcept_ok h).1⟩

theorem invoke_honours {s t : State} (hs : s.registry.Seeded) {entry : Overload}
    {args : List Value} (hselects : s.Selects entry args) {calls line : Nat} {v : Value}
    (h : invoke calls entry args line s = .ok v t) : entry.Honours v := by
  constructor
  · intro f hbody
    rw [invoke_native hbody] at h
    exact native_honours hs hselects hbody (Eval.ofExcept_ok h).1
  · intro params body hbody hvoid
    obtain ⟨result, hresult⟩ := invoke_user_returned hbody h
    exact returned_void hvoid hresult
  · intro params body hbody hvoid
    obtain ⟨result, hresult⟩ := invoke_user_returned hbody h
    exact returned_fits hvoid hresult

/-! ### Operators and calls -/

theorem callFound_ok {found : Except EvalError Overload} {args : List Value} {line : Nat}
    {s t : State} {r : Option Value} (h : Eval.callFound found args line s = .ok r t) :
    ∃ entry v, found = .ok entry ∧ invoke (callLimit - s.depth) entry args line s = .ok v t ∧
      r = some v := by
  obtain ⟨entry, u, hfound, hcall⟩ := bind_ok h
  obtain ⟨rfl, rfl⟩ := Eval.ofExcept_ok hfound
  rw [map_eq_pure_bind] at hcall
  obtain ⟨v, u, hv, hr⟩ := bind_ok hcall
  cases hr
  exact ⟨entry, v, rfl, hv, rfl⟩

/-- An operator or call that has a value got it from the function it selected. -/
theorem application_ok {n : Node} (hn : n.isApplication) {s t : State} {r : Option Value}
    (h : Eval.node n s = .ok r t) :
    ∃ u entry args v, Evolves s u ∧ u.Selects entry args ∧
      invoke (callLimit - u.depth) entry args n.line u = .ok v t ∧ r = some v := by
  cases n with
  | negation operand line =>
    rw [Eval.node_negation] at h
    obtain ⟨a, u, ha, h⟩ := bind_ok h
    rw [get_bind] at h
    obtain ⟨entry, v, hfound, hv, rfl⟩ := callFound_ok h
    have hselects : u.Selects entry [a] := .call hfound
    exact ⟨u, entry, [a], v, Eval.evolves_required ha, hselects, hv, rfl⟩
  | binary l op r line =>
    rw [Eval.node_binary] at h
    obtain ⟨a, u, ha, h⟩ := bind_ok h
    obtain ⟨b, u', hb, h⟩ := bind_ok h
    rw [get_bind] at h
    obtain ⟨entry, v, hfound, hv, rfl⟩ := callFound_ok h
    exact ⟨u', entry, [a, b], v, (Eval.evolves_required ha).trans (Eval.evolves_required hb),
      .operator hfound, hv, rfl⟩
  | call name args line =>
    rw [Eval.node_call] at h
    obtain ⟨values, u, hvalues, h⟩ := bind_ok h
    rw [get_bind] at h
    obtain ⟨entry, v, hfound, hv, rfl⟩ := callFound_ok h
    exact ⟨u, entry, values, v, Eval.evolves_arguments hvalues, .call hfound, hv, rfl⟩
  | _ => cases hn

/-- In every state of a session, between operations and within them, what a function gives that an
operator or a call selects is as the function declares, whatever its body is and however many calls
are still allowed. The value of an operator or a call is always such. -/
theorem return_type_honoured {s : State} (hs : Visited s) :
    (∀ (entry : Overload) (args : List Value), s.Selects entry args →
      ∀ (calls line : Nat) (v : Value) (t : State),
        invoke calls entry args line s = .ok v t → entry.Honours v) ∧
    ∀ n : Node, n.isApplication → ∀ r t, Eval.node n s = .ok r t →
      ∃ u entry args v, Evolves s u ∧ u.Selects entry args ∧
        invoke (callLimit - u.depth) entry args n.line u = .ok v t ∧ r = some v ∧
        entry.Honours v := by
  constructor
  · intro entry args hselects calls line v t h
    exact invoke_honours hs.seeded hselects h
  · intro n hn r t h
    obtain ⟨u, entry, args, v, hevolves, hselects, hv, hr⟩ := application_ok hn h
    exact ⟨u, entry, args, v, hevolves, hselects, hv, hr,
      invoke_honours (hevolves.seeded hs.seeded) hselects hv⟩

/-- The function `flag`, which declares `bool` and returns integers. -/
def flagOverload : Overload :=
  ⟨"flag", [.int], .bool, .user ["n"]
    (.block [.returning (.literal (.int 0) 1) 1, .returning (.variable "n" 1) 1] 1)⟩

/-- A session that defines `flag` and a function without a result that calls it. -/
def castingSession : State :=
  (Operation.unit (.block
    [.function "flag" "bool" [⟨"int", "n"⟩]
      (.block [.returning (.literal (.int 0) 1) 1, .returning (.variable "n" 1) 1] 1) 1,
     .function "check" "void" []
      (.block [.returning (.call "flag" [.literal (.int 7) 2] 2) 2] 2) 2] 1)).run State.initial

/-- The last of two results is turned into a boolean, and a function without a result gives null
though its body returns that boolean. -/
theorem return_type_honoured_castingSession :
    Visited castingSession ∧
    castingSession.Selects flagOverload [.int 7] ∧
    invoke callLimit flagOverload [.int 7] 3 castingSession = .ok (.bool true) castingSession ∧
    flagOverload.Honours (.bool true) ∧
    Eval.node (.call "check" [] 3) castingSession = .ok (some .null) castingSession ∧
    ∃ (u : State) (entry : Overload) (args : List Value),
      u.Selects entry args ∧ entry.Honours .null := by
  have hvisited : Visited castingSession := .between (.operation (.initial .empty) _)
  have hfound : castingSession.registry.resolve "flag" [.int] 3 = .ok flagOverload := rfl
  have hselects : castingSession.Selects flagOverload [.int 7] := .call hfound
  have hflag : invoke callLimit flagOverload [.int 7] 3 castingSession =
    .ok (.bool true) castingSession := rfl
  have hcheck : Eval.node (.call "check" [] 3) castingSession =
    .ok (some .null) castingSession := rfl
  obtain ⟨hinvoke, happlication⟩ := return_type_honoured hvisited
  obtain ⟨u, entry, args, v, _, hselected, _, hv, hhonours⟩ := happlication _ rfl _ _ hcheck
  cases hv
  exact ⟨hvisited, hselects, hflag, hinvoke _ _ hselects _ _ _ _ hflag, hcheck, u, entry, args,
    hselected, hhonours⟩

end ConsoleScript
