import Mathlib
import ConsoleScript.Proofs.Evaluation.Operators

/-!
# Integer arithmetic

A tree of integer literals, negations and operators is computed as in the integers, as long as every
result on the way is a 64-bit integer and nothing is divided by zero. Otherwise its evaluation fails
at the first operation of which this is not so. Functions that were defined before make no
difference: none can take the place of the operators on integers.
-/

namespace ConsoleScript

/-- What an operator makes of two integers. Division truncates towards zero. -/
def BinaryOperator.exact : BinaryOperator → Int → Int → Int
  | add => (· + ·)
  | subtract => (· - ·)
  | multiply => (· * ·)
  | divide => Int.tdiv

/-- The function behind an operator on numbers. -/
def BinaryOperator.builtin : BinaryOperator → Builtin
  | add => .add
  | subtract => .subtract
  | multiply => .multiply
  | divide => .divide

/-- The integers of 64 bits. -/
def IsInt64 (n : Int) : Prop :=
  -2 ^ 63 ≤ n ∧ n ≤ 2 ^ 63 - 1

instance (n : Int) : Decidable (IsInt64 n) :=
  inferInstanceAs (Decidable (_ ∧ _))

/-- Trees of integer literals, negations and operators. -/
inductive IntTree where
  | literal (n : Int64) (line : Nat)
  | negation (operand : IntTree) (line : Nat)
  | binary (left : IntTree) (op : BinaryOperator) (right : IntTree) (line : Nat)

namespace IntTree

def node : IntTree → Node
  | literal n line => .literal (.int n) line
  | negation e line => .negation e.node line
  | binary l op r line => .binary l.node op r.node line

/-- The value in the integers, whatever its size. -/
def value : IntTree → Int
  | literal n _ => n.toInt
  | negation e _ => -e.value
  | binary l op r _ => op.exact l.value r.value

/-- The operations from left to right, each behind those of its operands. -/
def operations : IntTree → List IntTree
  | literal _ _ => []
  | negation e line => e.operations ++ [negation e line]
  | binary l op r line => l.operations ++ r.operations ++ [binary l op r line]

def dividesByZero : IntTree → Bool
  | binary _ op r _ => op = .divide && r.value = 0
  | _ => false

/-- An operation cannot be done if its divisor is zero or its value is no 64-bit integer. -/
def Offends (e : IntTree) : Prop :=
  e.dividesByZero ∨ ¬ IsInt64 e.value

instance (e : IntTree) : Decidable e.Offends :=
  inferInstanceAs (Decidable (_ ∨ _))

/-- How an operation fails that cannot be done. -/
def failure (e : IntTree) : EvalError :=
  if e.dividesByZero then .divisionByZero e.node.line else .overflow e.node.line

/-- The first operation that cannot be done. -/
def offending? (e : IntTree) : Option IntTree :=
  e.operations.find? (·.Offends)

end IntTree

/-! ### One operation -/

/-- What an operation gives that comes to `n` in the integers. -/
def Builtin.computed (n : Int) (line : Nat) : Except EvalError Value :=
  (int64? n).elim (.error (.overflow line)) fun m => .ok (.int m)

namespace Builtin

theorem computed_ok {n : Int} (h : IsInt64 n) (line : Nat) :
    ∃ m : Int64, m.toInt = n ∧ computed n line = .ok (.int m) := by
  have hbounds : Int64.minValue.toInt ≤ n ∧ n ≤ Int64.maxValue.toInt := h
  refine ⟨Int64.ofInt n, Int64.toInt_ofInt_of_le h.1 (Int.lt_of_le_sub_one h.2), ?_⟩
  rw [computed, int64?, if_pos hbounds]
  rfl

theorem computed_error {n : Int} (h : ¬ IsInt64 n) (line : Nat) :
    computed n line = .error (.overflow line) := by
  have hbounds : ¬ (Int64.minValue.toInt ≤ n ∧ n ≤ Int64.maxValue.toInt) := h
  rw [computed, int64?, if_neg hbounds]
  rfl

theorem arithmetic_int (exact : Int → Int → Int) (rounded : Float → Float → Float) (a b : Int64)
    (line : Nat) :
    arithmetic exact rounded (.int a) (.int b) line = computed (exact a.toInt b.toInt) line := by
  unfold arithmetic computed
  dsimp only
  cases int64? (exact a.toInt b.toInt) <;> rfl

theorem apply_negate_int (a : Int64) (line : Nat) :
    negate.apply [.int a] line = computed (-a.toInt) line := by
  unfold apply computed
  dsimp only
  cases int64? (-a.toInt) <;> rfl

theorem isZero_int (b : Int64) : isZero (.int b) = decide (b.toInt = 0) := by
  rw [isZero, Bool.eq_iff_iff, decide_eq_true_iff, decide_eq_true_iff, ← Int64.toInt_inj]
  rfl

theorem apply_divide (a b : Value) (line : Nat) :
    divide.apply [a, b] line =
      if isZero b then .error (.divisionByZero line)
      else arithmetic Int.tdiv (· / ·) a b line := by
  change (if isZero b then (throw (.divisionByZero line) >>= fun _ : PUnit => _) else _ :
    Except EvalError Value) = _
  split <;> rfl

theorem apply_int {op : BinaryOperator} {a b : Int64} (h : ¬ (op = .divide ∧ b.toInt = 0))
    (line : Nat) :
    op.builtin.apply [.int a, .int b] line = computed (op.exact a.toInt b.toInt) line := by
  cases op with
  | add => exact arithmetic_int (· + ·) (· + ·) a b line
  | subtract => exact arithmetic_int (· - ·) (· - ·) a b line
  | multiply => exact arithmetic_int (· * ·) (· * ·) a b line
  | divide =>
    have hzero : isZero (.int b) = false := by simpa [isZero_int] using h
    change divide.apply _ line = _
    rw [apply_divide, hzero, ← arithmetic_int _ (· / ·)]
    rfl

theorem apply_int_zero {op : BinaryOperator} {a b : Int64} (h : op = .divide ∧ b.toInt = 0)
    (line : Nat) : op.builtin.apply [.int a, .int b] line = .error (.divisionByZero line) := by
  obtain ⟨rfl, hb⟩ := h
  have hzero : isZero (.int b) = true := by simpa [isZero_int] using hb
  change divide.apply _ line = _
  rw [apply_divide, hzero]
  rfl

end Builtin

namespace Eval

variable {s t u : State} {line : Nat}

theorem node_negation_error {operand : Node} {e : EvalError} (h : node operand s = .error e t) :
    node (.negation operand line) s = .error e t := by
  rw [node_negation, bind_of_error (required_of_error _ h)]

theorem node_binary_error_left {l r : Node} {op : BinaryOperator} {e : EvalError}
    (h : node l s = .error e t) : node (.binary l op r line) s = .error e t := by
  rw [node_binary, bind_of_error (required_of_error _ h)]

theorem node_binary_error_right {l r : Node} {op : BinaryOperator} {a : Value} {e : EvalError}
    (hl : node l s = .ok (some a) u) (hr : node r u = .error e t) :
    node (.binary l op r line) s = .error e t := by
  rw [node_binary, bind_of_ok (required_of_ok _ hl), bind_of_error (required_of_error _ hr)]

theorem node_negation_int (hs : s.registry.Seeded) {operand : Node} {a : Int64}
    (h : node operand s = .ok (some (.int a)) s) :
    node (.negation operand line) s = ofExcept (some <$> Builtin.computed (-a.toInt) line) s := by
  have hfound := hs.found ⟨negationName, [.int], .int, .native .negate⟩
    (by simp [Registry.builtins])
  have hresolve : s.registry.resolve negationName [(Value.int a).type] line = .ok _ :=
    resolve_of_find? hfound line
  rw [node_negation, bind_of_ok (required_of_ok _ h), get_bind, hresolve, callFound_native rfl,
    Builtin.apply_negate_int]

theorem node_binary_int (hs : s.registry.Seeded) {l r : Node} {op : BinaryOperator} {a b : Int64}
    (hl : node l s = .ok (some (.int a)) s) (hr : node r s = .ok (some (.int b)) s) :
    node (.binary l op r line) s =
      ofExcept (some <$> op.builtin.apply [.int a, .int b] line) s := by
  have hfound := hs.found ⟨op.functionName, [.int, .int], .int, .native op.builtin⟩
    (by cases op <;> simp [Registry.builtins, Registry.numeric, BinaryOperator.builtin])
  have hresolve : s.registry.resolveOperator op (Value.int a).type (Value.int b).type line =
      .ok _ := resolveOperator_of_find? hfound line
  rw [node_binary, bind_of_ok (required_of_ok _ hl), bind_of_ok (required_of_ok _ hr), get_bind,
    hresolve, callFound_native rfl]

end Eval

/-! ### Whole trees -/

namespace IntTree

/-- The value of the tree if all its operations can be done, and how the first fails that cannot. -/
structure Evaluates (e : IntTree) (s : State) : Prop where
  value : e.offending? = none →
    ∃ n : Int64, n.toInt = e.value ∧ Eval.node e.node s = .ok (some (.int n)) s
  failure : ∀ o, e.offending? = some o → Eval.node e.node s = .error o.failure s

variable {s : State} {l r e : IntTree} {op : BinaryOperator} {line : Nat}

theorem Evaluates.of_failure {o : IntTree} (hoff : e.offending? = some o)
    (h : Eval.node e.node s = .error o.failure s) : e.Evaluates s := by
  constructor
  · intro hnone
    rw [hoff] at hnone
    cases hnone
  · intro o' ho'
    rw [hoff] at ho'
    cases ho'
    exact h

/-- Where the operands offend nowhere, the operation itself decides. -/
theorem Evaluates.of_operands (hoff : e.offending? = [e].find? (·.Offends))
    (hzero : e.dividesByZero → Eval.node e.node s = .error (.divisionByZero e.node.line) s)
    (hcomputed : ¬ e.dividesByZero → Eval.node e.node s =
      Eval.ofExcept (some <$> Builtin.computed e.value e.node.line) s) : e.Evaluates s := by
  by_cases hoffends : e.Offends
  · rw [List.find?_cons_of_pos (by simpa using hoffends)] at hoff
    apply of_failure hoff
    by_cases hdivides : e.dividesByZero
    · rw [hzero hdivides, IntTree.failure, if_pos hdivides]
    · have hint : ¬ IsInt64 e.value := hoffends.resolve_left hdivides
      rw [hcomputed hdivides, Builtin.computed_error hint, IntTree.failure, if_neg hdivides]
      rfl
  · obtain ⟨hdivides, hint⟩ := not_or.mp hoffends
    constructor
    · intro _
      obtain ⟨n, hn, hok⟩ := Builtin.computed_ok (not_not.mp hint) e.node.line
      refine ⟨n, hn, ?_⟩
      rw [hcomputed hdivides, hok]
      rfl
    · intro o ho
      rw [hoff, List.find?_cons_of_neg (by simpa using hoffends)] at ho
      cases ho

theorem offending?_negation :
    (negation e line).offending? = e.offending?.or ([negation e line].find? (·.Offends)) := by
  rw [offending?, operations, List.find?_append]
  rfl

theorem offending?_binary :
    (binary l op r line).offending? =
      (l.offending?.or r.offending?).or ([binary l op r line].find? (·.Offends)) := by
  rw [offending?, operations, List.find?_append, List.find?_append]
  rfl

theorem evaluates_negation (hs : s.registry.Seeded) (he : e.Evaluates s) :
    (negation e line).Evaluates s := by
  cases hoff : e.offending? with
  | some o =>
    have hfirst : (negation e line).offending? = some o := by rw [offending?_negation, hoff]; rfl
    exact .of_failure hfirst (Eval.node_negation_error (he.failure o hoff))
  | none =>
    obtain ⟨a, ha, heval⟩ := he.value hoff
    have hnode : Eval.node (negation e line).node s = _ := Eval.node_negation_int hs heval
    rw [ha] at hnode
    apply Evaluates.of_operands
    · rw [offending?_negation, hoff]
      rfl
    · rintro ⟨⟩
    · intro _
      exact hnode

theorem evaluates_binary (hs : s.registry.Seeded) (hl : l.Evaluates s) (hr : r.Evaluates s) :
    (binary l op r line).Evaluates s := by
  cases hleft : l.offending? with
  | some o =>
    have hfirst : (binary l op r line).offending? = some o := by
      rw [offending?_binary, hleft]
      rfl
    exact .of_failure hfirst (Eval.node_binary_error_left (hl.failure o hleft))
  | none =>
    obtain ⟨a, ha, hleval⟩ := hl.value hleft
    cases hright : r.offending? with
    | some o =>
      have hfirst : (binary l op r line).offending? = some o := by
        rw [offending?_binary, hleft, hright]
        rfl
      exact .of_failure hfirst (Eval.node_binary_error_right hleval (hr.failure o hright))
    | none =>
      obtain ⟨b, hb, hreval⟩ := hr.value hright
      have hnode : Eval.node (binary l op r line).node s = _ :=
        Eval.node_binary_int hs hleval hreval
      have hdivides : (binary l op r line).dividesByZero ↔ op = .divide ∧ b.toInt = 0 := by
        simp [dividesByZero, hb]
      apply Evaluates.of_operands
      · rw [offending?_binary, hleft, hright]
        rfl
      · intro h
        rw [hnode, Builtin.apply_int_zero (hdivides.mp h)]
        rfl
      · intro h
        rw [hnode, Builtin.apply_int (mt hdivides.mpr h), ha, hb]
        rfl

theorem evaluates (hs : s.registry.Seeded) (e : IntTree) : e.Evaluates s := by
  induction e with
  | literal n line => exact ⟨fun _ => ⟨n, rfl, rfl⟩, fun _ h => by cases h⟩
  | negation e line ih => exact evaluates_negation hs ih
  | binary l op r line ihl ihr => exact evaluates_binary hs ihl ihr

end IntTree

/-- Whatever a session did before, a tree of integer literals, negations and operators evaluates to
its value in the integers if no divisor is zero and all results are 64-bit integers. Otherwise it
fails as the first operation does of which that is not so. Neither changes the state. -/
theorem eval_arithmetic {s : State} (hs : Visited s) (e : IntTree) :
    ((∀ o ∈ e.operations, ¬ o.dividesByZero ∧ IsInt64 o.value) →
      ∃ n : Int64, n.toInt = e.value ∧ Eval.node e.node s = .ok (some (.int n)) s) ∧
    ∀ o, e.operations.find? (·.Offends) = some o →
      (o.dividesByZero → Eval.node e.node s = .error (.divisionByZero o.node.line) s) ∧
      (¬ o.dividesByZero → Eval.node e.node s = .error (.overflow o.node.line) s) := by
  have heval := e.evaluates hs.seeded
  constructor
  · intro hall
    apply heval.value
    rw [IntTree.offending?, List.find?_eq_none]
    intro o ho
    rw [decide_eq_true_iff]
    rintro (hzero | hint)
    · exact (hall o ho).1 hzero
    · exact hint (hall o ho).2
  · intro o ho
    have hfailure := heval.failure o ho
    rw [IntTree.failure] at hfailure
    constructor
    · intro hzero
      rwa [if_pos hzero] at hfailure
    · intro hzero
      rwa [if_neg hzero] at hfailure

/-- A session in which `+` was overloaded. -/
def overloadedSession : State :=
  (Operation.unit (.function "op_Add" "int" [⟨"bool", "a"⟩, ⟨"int", "b"⟩]
    (.block [.returning (.variable "b" 1) 1] 1) 1)).run State.initial

/-- There `-7 / 2` is `-3`, the least integer can neither be negated nor divided by `-1`, and of two
operations that cannot be done the left one fails. -/
theorem eval_arithmetic_overloadedSession :
    Visited overloadedSession ∧ ("op_Add", [ValueType.bool, .int]) ∈
      overloadedSession.registry.entries.map (fun entry => (entry.name, entry.params)) ∧
    (∃ n : Int64, n.toInt = -3 ∧
      Eval.node (.binary (.negation (.literal (.int 7) 2) 2) .divide (.literal (.int 2) 2) 2)
        overloadedSession = .ok (some (.int n)) overloadedSession) ∧
    Eval.node (.negation (.literal (.int Int64.minValue) 2) 3) overloadedSession =
      .error (.overflow 3) overloadedSession ∧
    Eval.node (.binary (.literal (.int Int64.minValue) 2) .divide
        (.negation (.literal (.int 1) 2) 3) 4) overloadedSession =
      .error (.overflow 4) overloadedSession ∧
    Eval.node (.binary (.binary (.literal (.int 7) 2) .divide (.literal (.int 0) 2) 3) .add
        (.binary (.literal (.int Int64.maxValue) 2) .add (.literal (.int 1) 2) 4) 5)
        overloadedSession = .error (.divisionByZero 3) overloadedSession := by
  have hvisited : Visited overloadedSession := .between (.operation (.initial .empty) _)
  have heval := eval_arithmetic hvisited
  refine ⟨hvisited, by decide, ?_, ?_, ?_, ?_⟩
  · exact (heval (.binary (.negation (.literal 7 2) 2) .divide (.literal 2 2) 2)).1 (by decide)
  · exact ((heval (.negation (.literal Int64.minValue 2) 3)).2 _ rfl).2 (by decide)
  · exact ((heval (.binary (.literal Int64.minValue 2) .divide (.negation (.literal 1 2) 3) 4)).2
      _ rfl).2 (by decide)
  · exact ((heval (.binary (.binary (.literal 7 2) .divide (.literal 0 2) 3) .add
      (.binary (.literal Int64.maxValue 2) .add (.literal 1 2) 4) 5)).2 _ rfl).1 (by decide)

end ConsoleScript
