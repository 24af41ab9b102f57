import Mathlib
import ConsoleScript.Proofs.Evaluation.Overloads
import ConsoleScript.Proofs.Evaluation.Strings

/-!
# The sizes of strings

Only the operators make strings, apart from the names of types, and they keep to the limit. So no
evaluation, however it mixes variables, loops and calls, comes to a string that is longer both than
the limit and than all the strings that were there at first.
-/

namespace ConsoleScript

variable {α β : Type}

/-! ### Evaluations -/

/-- No string in the scope or in the body of a function is larger than `m` bytes. -/
def State.Within (m : Nat) (s : State) : Prop :=
  SizesWithin m s.strings

namespace State.Within

variable {m : Nat} {s : State}

theorem scope (h : s.Within m) : SizesWithin m s.scope.strings :=
  (sizesWithin_append.mp h).1

theorem registry (h : s.Within m) : SizesWithin m s.registry.strings :=
  (sizesWithin_append.mp h).2

theorem withScope (h : s.Within m) {scope : Scope} (hscope : SizesWithin m scope.strings) :
    State.Within m { s with scope } :=
  sizesWithin_append.mpr ⟨hscope, h.registry⟩

theorem withRegistry (h : s.Within m) {registry : Registry}
    (hregistry : SizesWithin m registry.strings) : State.Within m { s with registry } :=
  sizesWithin_append.mpr ⟨h.scope, hregistry⟩

theorem body (h : s.Within m) {entry : Overload} (hentry : entry ∈ s.registry.entries) :
    SizesWithin m entry.body.strings :=
  h.registry.subset (Registry.strings_mem hentry)

end State.Within

namespace Eval

variable {m : Nat} {P : α → Prop} {Q : β → Prop}

/-- Started within the bound, the evaluation stays within it whether it succeeds or fails, and what
it gives has the property. -/
def Stays (m : Nat) (P : α → Prop) (act : Eval α) : Prop :=
  ∀ s : State, s.Within m → (act.after s).Within m ∧ ∀ a t, act s = .ok a t → P a

theorem stays_pure {a : α} (h : P a) : (pure a : Eval α).Stays m P := by
  intro s hs
  refine ⟨hs, ?_⟩
  rintro b t ⟨⟩
  exact h

theorem stays_throw (e : EvalError) : (throw e : Eval α).Stays m P := by
  intro s hs
  refine ⟨hs, ?_⟩
  rintro b t ⟨⟩

theorem stays_get : (get : Eval State).Stays m (State.Within m) := by
  intro s hs
  refine ⟨hs, ?_⟩
  rintro b t ⟨⟩
  exact hs

theorem stays_ofExcept {result : Except EvalError α} (h : ∀ a, result = .ok a → P a) :
    (ofExcept result).Stays m P := by
  cases result with
  | ok a => exact stays_pure (h a rfl)
  | error e => exact stays_throw e

theorem stays_modify {f : State → State} (h : ∀ s : State, s.Within m → (f s).Within m) :
    (modify f : Eval Unit).Stays m fun _ => True :=
  fun s hs => ⟨h s hs, fun _ _ _ => trivial⟩

theorem Stays.bind {x : Eval α} {f : α → Eval β} (hx : x.Stays m P)
    (hf : ∀ a, P a → (f a).Stays m Q) : (x >>= f).Stays m Q := by
  intro s hs
  obtain ⟨hafter, hvalue⟩ := hx s hs
  unfold after at hafter ⊢
  cases hrun : x s with
  | ok a t =>
    rw [hrun] at hafter
    rw [bind_of_ok hrun]
    exact hf a (hvalue a t hrun) t hafter
  | error e t =>
    rw [hrun] at hafter
    rw [bind_of_error hrun]
    refine ⟨hafter, ?_⟩
    rintro b u ⟨⟩

/-- The evaluation of a node, as far as its value goes. -/
abbrev StaysNode (m : Nat) (act : Eval (Option Value)) : Prop :=
  act.Stays m fun value => SizesWithin m (resultStrings value)

abbrev StaysValue (m : Nat) (act : Eval Value) : Prop :=
  act.Stays m fun value => SizesWithin m value.strings

theorem stays_none : StaysNode m (pure none) :=
  stays_pure sizesWithin_nil

theorem stays_some {value : Value} (h : SizesWithin m value.strings) :
    StaysNode m (pure (some value)) :=
  stays_pure (by rwa [resultStrings_some])

theorem StaysNode.required {line : Nat} {act : Eval (Option Value)} (h : StaysNode m act) :
    StaysValue m (required line act) := by
  apply h.bind
  intro value hvalue
  cases value with
  | none => exact stays_throw _
  | some value =>
    rw [resultStrings_some] at hvalue
    exact stays_pure hvalue

theorem StaysNode.times {act : Eval (Option Value)} (h : StaysNode m act) {last : Option Value}
    (hlast : SizesWithin m (resultStrings last)) (count : Nat) :
    StaysNode m (times act last count) := by
  induction count generalizing last with
  | zero => exact stays_pure hlast
  | succ count ih => exact h.bind fun value hvalue => ih hvalue

theorem stays_declareAll {type : Option ValueType} {value : Option Value} {line : Nat}
    (hvalue : SizesWithin m (resultStrings value)) (names : List String) :
    (declareAll type value line names).Stays m fun _ => True := by
  induction names with
  | nil => exact stays_pure trivial
  | cons name names ih =>
    rw [declareAll]
    apply stays_get.bind
    intro s hs
    cases hnew : s.scope.declareInitial name type value line with
    | error e =>
      have hlog : (modify (State.log e) : Eval Unit).Stays m fun _ => True :=
        stays_modify fun t ht => ht
      exact hlog.bind fun _ _ => ih
    | ok scope =>
      obtain ⟨_, v, hv, hdeclare⟩ := declareInitial_ok hnew
      have hscope : SizesWithin m scope.strings := by
        rw [Scope.strings_declare hdeclare, sizesWithin_append]
        exact ⟨hvalue.subset (initial_strings hv), hs.scope⟩
      have hset : (modify fun t : State => { t with scope } : Eval Unit).Stays m fun _ => True :=
        stays_modify fun t ht => ht.withScope hscope
      exact hset.bind fun _ _ => ih

theorem Stays.inFrame {frame : Scope} {act : Eval α} (hframe : SizesWithin m frame.strings)
    (h : act.Stays m P) : (inFrame frame act).Stays m P := by
  intro s hs
  obtain ⟨hafter, hvalue⟩ := h { s with scope := frame, depth := s.depth + 1 }
    (hs.withScope hframe)
  unfold after at hafter
  unfold after Eval.inFrame
  cases hrun : act { s with scope := frame, depth := s.depth + 1 } with
  | ok a t =>
    rw [hrun] at hafter
    refine ⟨hafter.withScope hs.scope, ?_⟩
    rintro b u ⟨⟩
    exact hvalue a t hrun
  | error e t =>
    rw [hrun] at hafter
    refine ⟨hafter.withScope hs.scope, ?_⟩
    rintro b u ⟨⟩

end Eval

open Eval

/-- Calls of functions whose bodies are within the bound, with arguments that are. -/
def Invoke.Stays (m : Nat) (invoke : Invoke) : Prop :=
  ∀ (entry : Overload) (args : List Value) (line : Nat), SizesWithin m entry.body.strings →
    SizesWithin m (args.flatMap Value.strings) → StaysValue m (invoke entry args line)

/-- The function that was found is called, and what it gives is the value of the node. -/
theorem Invoke.Stays.resolved {m : Nat} {invoke : Invoke} (hinvoke : invoke.Stays m)
    {find : Registry → Except EvalError Overload}
    (hfind : ∀ (r : Registry) (entry : Overload), find r = .ok entry → entry ∈ r.entries)
    {args : List Value} (hargs : SizesWithin m (args.flatMap Value.strings)) (line : Nat) :
    StaysNode m (do
      let entry ← Eval.ofExcept (find (← get).registry)
      return some (← invoke entry args line)) := by
  apply stays_get.bind
  intro s hs
  have hfound : (Eval.ofExcept (find s.registry)).Stays m fun entry =>
      SizesWithin m entry.body.strings :=
    stays_ofExcept fun entry hentry => hs.body (hfind _ entry hentry)
  apply hfound.bind
  intro entry hentry
  exact (hinvoke entry args line hentry hargs).bind fun value hvalue => stays_some hvalue

namespace Node

variable {m : Nat} {invoke : Invoke}

mutual

theorem stays_eval (hm : stringLimit ≤ m) (hinvoke : invoke.Stays m) (n : Node)
    (hn : SizesWithin m n.strings) : StaysNode m (n.eval invoke) := by
  match n with
  | literal value line => exact stays_some hn
  | noOp line => exact stays_none
  | .variable name line =>
    rw [eval]
    apply stays_get.bind
    intro s hs
    have hget : (Eval.ofExcept (s.scope.get name line)).Stays m fun v =>
        SizesWithin m v.value.strings := by
      apply stays_ofExcept
      intro v hv
      exact hs.scope.subset (Scope.strings_find? (Scope.get_ok hv))
    exact hget.bind fun v hv => stays_some hv
  | negation operand line =>
    rw [eval]
    rw [strings] at hn
    apply (stays_eval hm hinvoke operand hn).required.bind
    intro value hvalue
    exact hinvoke.resolved (fun _ _ h => (resolve_ok h).1) (by simpa using hvalue) line
  | binary left op right line =>
    rw [eval]
    rw [strings, sizesWithin_append] at hn
    apply (stays_eval hm hinvoke left hn.1).required.bind
    intro a ha
    apply (stays_eval hm hinvoke right hn.2).required.bind
    intro b hb
    exact hinvoke.resolved (fun _ _ h => (resolveOperator_ok h).1) (by simpa using ⟨ha, hb⟩) line
  | assignment target value line =>
    rw [strings, sizesWithin_append] at hn
    cases target with
    | «variable» name _ =>
      rw [eval]
      apply stays_get.bind
      intro s _
      refine Stays.bind (P := fun _ => True) (stays_ofExcept fun _ _ => trivial) ?_
      intro v _
      apply (stays_eval hm hinvoke value hn.2).required.bind
      intro a ha
      have hfit : (Eval.ofExcept (v.type.fitDeclared a line)).Stays m fun fitted =>
          SizesWithin m fitted.strings :=
        stays_ofExcept fun fitted h => ha.subset (fitDeclared_strings h)
      apply hfit.bind
      intro fitted hfitted
      apply stays_get.bind
      intro t ht
      have hset : (Eval.ofExcept (t.scope.assign name fitted line)).Stays m fun scope =>
          SizesWithin m scope.strings := by
        apply stays_ofExcept
        intro scope h
        exact (sizesWithin_append.mpr ⟨hfitted, ht.scope⟩).subset (Scope.strings_assign h)
      apply hset.bind
      intro scope hscope
      exact Stays.bind (stays_modify fun u hu => hu.withScope hscope) fun _ _ => stays_none
    | _ => exact stays_throw _
  | declaration declared names initializer line =>
    rw [eval]
    rw [strings] at hn
    refine Stays.bind (P := fun _ => True) (stays_ofExcept fun _ _ => trivial) ?_
    intro type _
    apply (stays_evalInitializer hm hinvoke initializer hn).bind
    intro value hvalue
    exact (stays_declareAll hvalue names).bind fun _ _ => stays_none
  | block statements line =>
    rw [eval]
    rw [strings] at hn
    exact stays_evalStatements hm hinvoke sizesWithin_nil statements hn
  | branch condition thenBody elseBody line =>
    rw [eval]
    rw [strings, sizesWithin_append, sizesWithin_append] at hn
    apply (stays_eval hm hinvoke condition hn.1.1).required.bind
    intro value _
    split
    · exact stays_eval hm hinvoke thenBody hn.1.2
    · exact stays_evalElse hm hinvoke elseBody hn.2
    · exact stays_throw _
  | loop count body line =>
    rw [eval]
    rw [strings, sizesWithin_append] at hn
    apply (stays_eval hm hinvoke count hn.1).required.bind
    intro value _
    split
    · exact (stays_eval hm hinvoke body hn.2).times sizesWithin_nil _
    · exact stays_throw _
  | print expr line =>
    rw [eval]
    rw [strings] at hn
    apply (stays_eval hm hinvoke expr hn).bind
    intro value _
    exact Stays.bind (stays_modify fun s hs => hs) fun _ _ => stays_none
  | typeOf expr line =>
    rw [eval]
    rw [strings] at hn
    apply (stays_eval hm hinvoke expr hn).required.bind
    intro value _
    apply stays_some
    intro text htext
    rw [List.mem_singleton.mp htext]
    exact Nat.le_trans value.type.size_name hm
  | returning expr line =>
    rw [eval]
    rw [strings] at hn
    exact stays_eval hm hinvoke expr hn
  | function name returnType params body line =>
    rw [eval]
    rw [strings] at hn
    have hdefine : (Eval.ofExcept (Overload.ofDefinition name returnType params body line)).Stays m
        fun entry => SizesWithin m entry.body.strings := by
      apply stays_ofExcept
      intro entry hentry
      rwa [ofDefinition_strings hentry]
    apply hdefine.bind
    intro entry hentry
    apply stays_get.bind
    intro s hs
    have hregister : (Eval.ofExcept (s.registry.register entry line)).Stays m fun registry =>
        SizesWithin m registry.strings := by
      apply stays_ofExcept
      intro registry hnew
      rw [Registry.strings_register hnew, sizesWithin_append]
      exact ⟨hs.registry, hentry⟩
    apply hregister.bind
    intro registry hregistry
    exact Stays.bind (stays_modify fun t ht => ht.withRegistry hregistry) fun _ _ => stays_none
  | call name arguments line =>
    rw [eval]
    rw [strings] at hn
    apply (stays_evalArguments hm hinvoke arguments hn).bind
    intro args hargs
    exact hinvoke.resolved (fun _ _ h => (resolve_ok h).1) hargs line

theorem stays_evalInitializer (hm : stringLimit ≤ m) (hinvoke : invoke.Stays m)
    (initializer : Option Node) (hn : SizesWithin m (optionStrings initializer)) :
    StaysNode m (evalInitializer invoke initializer) := by
  match initializer with
  | none => exact stays_none
  | some node =>
    rw [evalInitializer, map_eq_pure_bind]
    rw [optionStrings] at hn
    exact (stays_eval hm hinvoke node hn).required.bind fun value hvalue => stays_some hvalue

theorem stays_evalElse (hm : stringLimit ≤ m) (hinvoke : invoke.Stays m) (elseBody : Option Node)
    (hn : SizesWithin m (optionStrings elseBody)) : StaysNode m (evalElse invoke elseBody) := by
  match elseBody with
  | none => exact stays_none
  | some node =>
    rw [evalElse]
    rw [optionStrings] at hn
    exact stays_eval hm hinvoke node hn

theorem stays_evalStatements (hm : stringLimit ≤ m) (hinvoke : invoke.Stays m)
    {result : Option Value} (hresult : SizesWithin m (resultStrings result)) (nodes : List Node)
    (hn : SizesWithin m (listStrings nodes)) :
    StaysNode m (evalStatements invoke result nodes) := by
  match nodes with
  | [] => exact stays_pure hresult
  | node :: nodes =>
    rw [evalStatements]
    rw [listStrings, sizesWithin_append] at hn
    apply (stays_eval hm hinvoke node hn.1).bind
    intro value hvalue
    refine stays_evalStatements hm hinvoke ?_ nodes hn.2
    split
    · exact hvalue
    · exact hresult

theorem stays_evalArguments (hm : stringLimit ≤ m) (hinvoke : invoke.Stays m) (nodes : List Node)
    (hn : SizesWithin m (listStrings nodes)) :
    (evalArguments invoke nodes).Stays m fun args =>
      SizesWithin m (args.flatMap Value.strings) := by
  match nodes with
  | [] => exact stays_pure sizesWithin_nil
  | node :: nodes =>
    rw [evalArguments]
    rw [listStrings, sizesWithin_append] at hn
    apply (stays_eval hm hinvoke node hn.1).required.bind
    intro value hvalue
    apply (stays_evalArguments hm hinvoke nodes hn.2).bind
    intro values hvalues
    apply stays_pure
    rw [List.flatMap_cons, sizesWithin_append]
    exact ⟨hvalue, hvalues⟩

end

end Node

theorem stays_native {m : Nat} (hm : stringLimit ≤ m) {entry : Overload} {f : Builtin}
    (hbody : entry.body = .native f) (calls : Nat) (args : List Value) (line : Nat) :
    StaysValue m (invoke calls entry args line) := by
  rw [invoke_native hbody]
  apply stays_ofExcept
  intro value hvalue text htext
  exact Nat.le_trans (Builtin.apply_within hvalue text htext) hm

/-- The induction is on the calls that are still allowed, the one on trees is done for each. -/
theorem stays_invoke {m : Nat} (hm : stringLimit ≤ m) (calls : Nat) :
    Invoke.Stays m (invoke calls) := by
  induction calls with
  | zero =>
    intro entry args line _ _
    cases hbody : entry.body with
    | native f => exact stays_native hm hbody 0 args line
    | user params body =>
      rw [invoke_user_zero hbody]
      exact stays_throw _
  | succ calls ih =>
    intro entry args line hentry hargs
    cases hbody : entry.body with
    | native f => exact stays_native hm hbody (calls + 1) args line
    | user params body =>
      rw [invoke_user_succ hbody]
      rw [hbody] at hentry
      have hbind : (Eval.ofExcept (Scope.empty.bind line params entry.params args)).Stays m
          fun frame => SizesWithin m frame.strings :=
        stays_ofExcept fun frame hframe => hargs.subset (Scope.strings_bind hframe)
      apply hbind.bind
      intro frame hframe
      apply ((Node.stays_eval hm ih body hentry).inFrame hframe).bind
      intro result hresult
      exact stays_ofExcept fun value hvalue => hresult.subset (returned_strings hvalue)

theorem stays_node {m : Nat} (hm : stringLimit ≤ m) {n : Node} (hn : SizesWithin m n.strings) :
    StaysNode m (Eval.node n) :=
  fun s hs => Node.stays_eval hm (stays_invoke hm _) n hn s hs

/-! ### Sessions -/

section Sessions

variable {m : Nat} {s : State}

theorem State.Within.orLog (hm : stringLimit ≤ m) {n : Node} (hn : SizesWithin m n.strings)
    (hs : s.Within m) : (Eval.orLog (Eval.node n) s).2.Within m ∧
      SizesWithin m (resultStrings (Eval.orLog (Eval.node n) s).1) := by
  obtain ⟨hafter, hvalue⟩ := stays_node hm hn s hs
  unfold Eval.after at hafter
  unfold Eval.orLog
  cases hrun : Eval.node n s with
  | ok value t =>
    rw [hrun] at hafter
    exact ⟨hafter, hvalue value t hrun⟩
  | error e t =>
    rw [hrun] at hafter
    exact ⟨hafter, sizesWithin_nil⟩

theorem State.Within.statements (hm : stringLimit ≤ m) {nodes : List Node}
    (hn : SizesWithin m (listStrings nodes)) {result : Option Value}
    (hresult : SizesWithin m (resultStrings result)) (hs : s.Within m) :
    (Eval.statements result nodes s).2.Within m ∧
      SizesWithin m (resultStrings (Eval.statements result nodes s).1) := by
  induction nodes generalizing result s with
  | nil => exact ⟨hs, hresult⟩
  | cons n nodes ih =>
    rw [listStrings, sizesWithin_append] at hn
    obtain ⟨hnext, hvalue⟩ := hs.orLog hm hn.1
    have hstep : Eval.statements result (n :: nodes) s =
        Eval.statements ((Eval.orLog (Eval.node n) s).1 <|> result) nodes
          (Eval.orLog (Eval.node n) s).2 := rfl
    rw [hstep]
    refine ih hn.2 ?_ hnext
    generalize (Eval.orLog (Eval.node n) s).1 = first at hvalue
    cases first with
    | none => exact hresult
    | some value => exact hvalue

theorem State.Within.unit (hm : stringLimit ≤ m) {n : Node} (hn : SizesWithin m n.strings)
    (hs : s.Within m) : (Eval.unit n s).2.Within m ∧
      SizesWithin m (resultStrings (Eval.unit n s).1) := by
  unfold Eval.unit
  split
  · rw [Node.strings] at hn
    exact hs.statements hm hn sizesWithin_nil
  · refine hs.statements hm ?_ sizesWithin_nil
    rw [listStrings, listStrings, List.append_nil]
    exact hn

theorem Operation.within (op : Operation) (hm : stringLimit ≤ m) (hop : SizesWithin m op.strings)
    (hs : s.Within m) : (op.run s).Within m := by
  cases op with
  | eval n => exact (stays_node hm hop s hs).1
  | unit n => exact (hs.unit hm hop).1
  | clearErrors => exact hs
  | reportErrors =>
    obtain ⟨output, houtput⟩ := s.report_eq
    rw [run, houtput]
    exact hs

theorem Operation.within_runAll (ops : List Operation) (hm : stringLimit ≤ m)
    (hops : SizesWithin m (ops.flatMap Operation.strings)) (hs : s.Within m) :
    (runAll ops s).Within m := by
  induction ops generalizing s with
  | nil => exact hs
  | cons op ops ih =>
    rw [List.flatMap_cons, sizesWithin_append] at hops
    exact ih hops.2 (op.within hm hops.1 hs)

end Sessions

/-- The bound that a state and some strings set themselves. -/
theorem State.within_sizeBound (s : State) (texts : List String) :
    let m := sizeBound (s.scope.strings ++ texts ++ s.registry.strings)
    stringLimit ≤ m ∧ SizesWithin m texts ∧ s.Within m := by
  have hbound := sizesWithin_sizeBound (s.scope.strings ++ texts ++ s.registry.strings)
  rw [sizesWithin_append, sizesWithin_append] at hbound
  obtain ⟨⟨hscope, htexts⟩, hregistry⟩ := hbound
  exact ⟨stringLimit_le_sizeBound _, htexts, sizesWithin_append.mpr ⟨hscope, hregistry⟩⟩

/-! ### Repetition -/

/-- The overload of `*` that repeats a string. -/
def repeatOverload : Overload :=
  ⟨BinaryOperator.multiply.functionName, [.string, .object], .string, .native .repeat⟩

theorem find?_repeatOverload :
    Registry.builtins.find? BinaryOperator.multiply.functionName [.string, .object] =
      some repeatOverload := rfl

theorem invoke_repeatOverload (calls : Nat) (text : String) (n : Int64) (line : Nat) (s : State) :
    invoke calls repeatOverload [.string text, .int n] line s =
      if stringLimit < text.utf8ByteSize * n.toInt.toNat then
        .error (.stringTooLong stringLimit line) s
      else .ok (.string (repeatText text n.toInt.toNat)) s := by
  rw [invoke_native rfl]
  change Eval.ofExcept (Builtin.repetition (.string text) (.int n) line) s = _
  unfold Builtin.repetition
  dsimp only
  rw [if_congr (stringLimit_lt_repeatedLength text n.toInt.toNat) rfl rfl]
  split <;> rfl

/-- The product is that of the integers: nothing wraps around, and a negative count is none. -/
theorem stringLimit_lt_iff (text : String) (n : Int) :
    stringLimit < text.utf8ByteSize * n.toNat ↔
      (2 ^ 24 : Int) < (text.utf8ByteSize : Int) * max n 0 := by
  have hcount : max n 0 = (n.toNat : Int) := (Int.ofNat_toNat n).symm
  have hlimit : (2 ^ 24 : Int) = (stringLimit : Int) := rfl
  rw [hcount, hlimit, ← Int.natCast_mul, Int.ofNat_lt]

/-- Let `m` be the limit or the size of the largest string that is in the scope, in the tree or in
the body of a function, whichever is larger. After the tree has been evaluated or has failed, and
also after a session of many trees with the strings of all of them, no string in the scope or in the
body of a function is larger than `m`, and neither is the value. The operator that repeats a string
fails exactly where the result would be over the limit. -/
theorem strings_bounded :
    (∀ (n : Node) (s : State),
      let m := sizeBound (s.scope.strings ++ n.strings ++ s.registry.strings)
      let t := (Eval.node n).after s
      SizesWithin m (t.scope.strings ++ t.registry.strings) ∧
        (∀ value u, Eval.node n s = .ok (some value) u → SizesWithin m value.strings) ∧
        let unit := Eval.unit n s
        SizesWithin m (unit.2.scope.strings ++ unit.2.registry.strings) ∧
          ∀ value, unit.1 = some value → SizesWithin m value.strings) ∧
      (∀ (ops : List Operation) (s : State),
        let t := Operation.runAll ops s
        SizesWithin (sizeBound (s.scope.strings ++ ops.flatMap Operation.strings ++
          s.registry.strings)) (t.scope.strings ++ t.registry.strings)) ∧
      ∃ entry, Registry.builtins.find? BinaryOperator.multiply.functionName [.string, .object] =
          some entry ∧
        ∀ (calls : Nat) (text : String) (n : Int64) (line : Nat) (s : State),
          (invoke calls entry [.string text, .int n] line s =
              .error (.stringTooLong stringLimit line) s ↔
            (2 ^ 24 : Int) < (text.utf8ByteSize : Int) * max n.toInt 0) ∧
          (¬ (2 ^ 24 : Int) < (text.utf8ByteSize : Int) * max n.toInt 0 →
            ∃ result, invoke calls entry [.string text, .int n] line s = .ok (.string result) s ∧
              result.toList =
                (List.replicate (max n.toInt 0).toNat text.toList).flatten) := by
  refine ⟨?_, ?_, repeatOverload, find?_repeatOverload, ?_⟩
  · intro n s
    obtain ⟨hm, hn, hs⟩ := s.within_sizeBound n.strings
    obtain ⟨hafter, hvalue⟩ := stays_node hm hn s hs
    obtain ⟨hunit, hresult⟩ := hs.unit hm hn
    refine ⟨hafter, ?_, hunit, ?_⟩
    · intro value u hrun
      rw [← resultStrings_some]
      exact hvalue (some value) u hrun
    · intro value hfirst
      rwa [hfirst, resultStrings_some] at hresult
  · intro ops s
    obtain ⟨hm, hops, hs⟩ := s.within_sizeBound (ops.flatMap Operation.strings)
    exact Operation.within_runAll ops hm hops hs
  · intro calls text n line s
    rw [invoke_repeatOverload, ← stringLimit_lt_iff]
    constructor
    · constructor
      · intro herror
        by_contra hsize
        rw [if_neg hsize] at herror
        cases herror
      · intro hsize
        rw [if_pos hsize]
    · intro hsize
      refine ⟨_, by rw [if_neg hsize], ?_⟩
      rw [toList_repeatText]
      congr 2
      omega

end ConsoleScript
