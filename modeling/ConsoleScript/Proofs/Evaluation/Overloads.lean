import ConsoleScript.Proofs.Evaluation.Machine
import Mathlib.Data.List.Nodup

/-!
# Overloads are only ever added

`Grows r t` holds where the registry `r` turns into `t` by registrations that succeed. What is found
once is found ever after, and two overloads of one name never take parameters of the same types. An
evaluation changes the registry in no other way, and neither does a single step of it, whether that
step is made inside of a call, of a loop or of an argument.
-/

namespace ConsoleScript

namespace Registry

/-- No two overloads of one name have parameters of the same types. -/
def Distinct (r : Registry) : Prop :=
  ∀ name, ((r.overloads name).map Overload.params).Nodup

/-- Some overload of the name has parameters of these types. -/
def Defines (r : Registry) (name : String) (types : List ValueType) : Prop :=
  ∃ entry ∈ r.overloads name, entry.params = types

theorem find?_eq_overloads (r : Registry) (name : String) (types : List ValueType) :
    r.find? name types = (r.overloads name).find? fun entry => entry.params = types := by
  rw [overloads, List.find?_filter, find?]
  simp only [decide_eq_true_eq, Bool.decide_and]

theorem find?_eq_none_iff (r : Registry) (name : String) (types : List ValueType) :
    r.find? name types = none ↔ ¬ r.Defines name types := by
  rw [find?_eq_overloads]
  simp [Defines]

theorem register_of_defines {r : Registry} {entry : Overload}
    (h : r.Defines entry.name entry.params) (line : Nat) :
    r.register entry line = .error (.alreadyDefined entry.name entry.params line) := by
  unfold register
  cases hfind : r.find? entry.name entry.params with
  | some old => rfl
  | none => exact absurd h ((r.find?_eq_none_iff _ _).mp hfind)

theorem register_of_not_defines {r : Registry} {entry : Overload}
    (h : ¬ r.Defines entry.name entry.params) (line : Nat) :
    r.register entry line = .ok ⟨r.entries ++ [entry]⟩ := by
  unfold register
  rw [(r.find?_eq_none_iff _ _).mpr h]

theorem not_defines_of_register {r t : Registry} {entry : Overload} {line : Nat}
    (h : r.register entry line = .ok t) : ¬ r.Defines entry.name entry.params := by
  intro hdefines
  rw [register_of_defines hdefines] at h
  cases h

theorem overloads_register {r t : Registry} {entry : Overload} {line : Nat}
    (h : r.register entry line = .ok t) (name : String) :
    t.overloads name = r.overloads name ++ if entry.name = name then [entry] else [] := by
  rw [overloads, entries_register h, List.filter_append, overloads, List.filter_cons]
  simp only [decide_eq_true_eq, List.filter_nil]

/-- The overloads of every name stay, in the same order and before those that are new, and what was
found is found. -/
structure Extends (r t : Registry) : Prop where
  overloads (name : String) : r.overloads name <+: t.overloads name
  found {name : String} {types : List ValueType} {entry : Overload}
    (h : r.find? name types = some entry) : t.find? name types = some entry

/-- The one registry turns into the other by registrations. -/
inductive Grows (r : Registry) : Registry → Prop where
  | refl : Grows r r
  | register {t u : Registry} {entry : Overload} {line : Nat} (h : Grows r t)
      (hnew : t.register entry line = .ok u) : Grows r u

namespace Grows

variable {r t u : Registry}

theorem trans (hrt : Grows r t) (htu : Grows t u) : Grows r u := by
  induction htu with
  | refl => exact hrt
  | register _ hnew ih => exact ih.register hnew

theorem toExtends (h : Grows r t) : r.Extends t := by
  induction h with
  | refl => exact ⟨fun name => List.prefix_refl _, id⟩
  | register _ hnew ih =>
    constructor
    · intro name
      rw [overloads_register hnew]
      exact (ih.overloads name).trans (List.prefix_append _ _)
    · intro name types entry hfound
      exact find?_register hnew (ih.found hfound)

theorem distinct (h : Grows r t) (hr : r.Distinct) : t.Distinct := by
  induction h with
  | refl => exact hr
  | @register t u entry line _ hnew ih =>
    intro name
    rw [overloads_register hnew]
    by_cases hname : entry.name = name
    · subst hname
      have hnone := not_defines_of_register hnew
      rw [if_pos rfl, List.map_append, List.nodup_append]
      refine ⟨ih entry.name, List.nodup_singleton _, ?_⟩
      intro types htypes types' htypes' heq
      obtain ⟨old, hold, rfl⟩ := List.mem_map.mp htypes
      rw [List.map_singleton, List.mem_singleton] at htypes'
      exact hnone ⟨old, hold, heq.trans htypes'⟩
    · rw [if_neg hname, List.append_nil]
      exact ih name

end Grows

theorem Distinct.of_pairwise {r : Registry}
    (h : r.entries.Pairwise fun a b => a.name = b.name → a.params ≠ b.params) : r.Distinct := by
  intro name
  rw [List.Nodup, List.pairwise_map, overloads, List.pairwise_filter]
  refine h.imp ?_
  intro a b hab ha hb
  exact hab ((of_decide_eq_true ha).trans (of_decide_eq_true hb).symm)

theorem distinct_empty : Registry.empty.Distinct :=
  .of_pairwise .nil

theorem distinct_builtins : Registry.builtins.Distinct :=
  .of_pairwise (by decide)

/-- In a registry of distinct overloads the types of an overload find it and no other. -/
theorem Distinct.find?_mem {r : Registry} (h : r.Distinct) {entry : Overload}
    (hmem : entry ∈ r.entries) : r.find? entry.name entry.params = some entry := by
  have hoverload : entry ∈ r.overloads entry.name := List.mem_filter.mpr ⟨hmem, by simp⟩
  have hsome : (r.find? entry.name entry.params).isSome := by
    rw [Option.isSome_iff_ne_none, ne_eq, find?_eq_none_iff, not_not]
    exact ⟨entry, hoverload, rfl⟩
  obtain ⟨found, hfound⟩ := Option.isSome_iff_exists.mp hsome
  obtain ⟨hfmem, hfname, hfparams⟩ := find?_some_mem hfound
  have hfoverload : found ∈ r.overloads entry.name := List.mem_filter.mpr ⟨hfmem, by simp [hfname]⟩
  have hinj := List.inj_on_of_nodup_map (h entry.name)
  rw [hfound, hinj hfoverload hoverload hfparams]

/-- Registers functions one after the other. A registration that fails leaves the registry as it
is. -/
def registerAll (r : Registry) : List (Overload × Nat) → Registry
  | [] => r
  | (entry, line) :: rest =>
    match r.register entry line with
    | .ok t => t.registerAll rest
    | .error _ => r.registerAll rest

theorem grows_registerAll (r : Registry) (calls : List (Overload × Nat)) :
    Grows r (r.registerAll calls) := by
  induction calls generalizing r with
  | nil => exact .refl
  | cons call rest ih =>
    obtain ⟨entry, line⟩ := call
    rw [registerAll]
    cases hnew : r.register entry line with
    | ok t => exact (Grows.refl.register hnew).trans (ih t)
    | error e => exact ih r

end Registry

open Registry (Grows)

/-! ### Evaluations -/

theorem Evolves.grows {s t : State} (h : Evolves s t) : Grows s.registry t.registry := by
  induction h with
  | refl | log | write | declare | assign => exact .refl
  | trans _ _ ihst ihtu => exact ihst.trans ihtu
  | register _ hnew => exact Grows.refl.register hnew
  | call _ _ ih => exact ih

theorem Occurs.grows {s t : State} (h : Occurs s t) : Grows s.registry t.registry := by
  induction h with
  | here h => exact h.grows
  | inside hbefore _ _ ih => exact hbefore.grows.trans ih

theorem Operation.grows (op : Operation) (s : State) :
    Grows s.registry (op.run s).registry ∧ ∀ t ∈ op.moments s, Grows s.registry t.registry :=
  op.preserves (P := fun t => Grows s.registry t.registry) .refl
    (fun _ _ h hs => hs.trans h.grows) (fun _ _ h hs => hs.trans h.grows) fun _ _ _ hs => hs

theorem Reachable.grows {s : State} (h : Reachable s) : Grows .builtins s.registry := by
  induction h with
  | initial => exact .refl
  | operation _ op ih => exact ih.trans (op.grows _).1

/-- The state after operations one after the other. -/
def Operation.runAll (ops : List Operation) (s : State) : State :=
  ops.foldl (fun s op => op.run s) s

theorem Operation.grows_runAll (ops : List Operation) (s : State) :
    Grows s.registry (runAll ops s).registry := by
  induction ops generalizing s with
  | nil => exact .refl
  | cons op ops ih => exact (op.grows s).1.trans (ih (op.run s))

/-- A definition whose types are in order fails only for a function that exists, and then the state
is as it was. -/
theorem node_function {name returnType : String} {params : List Parameter} {body : Node}
    {line : Nat} {entry : Overload}
    (hentry : Overload.ofDefinition name returnType params body line = .ok entry) (s : State) :
    Eval.node (.function name returnType params body line) s =
      match s.registry.register entry line with
      | .ok registry => .ok none { s with registry }
      | .error e => .error e s := by
  rw [Eval.node, Node.eval, hentry]
  cases hnew : s.registry.register entry line with
  | ok registry =>
    change (Eval.ofExcept (s.registry.register entry line) >>= _) s = _
    rw [hnew]
    rfl
  | error e =>
    change (Eval.ofExcept (s.registry.register entry line) >>= _) s = _
    rw [hnew]
    rfl

/-! ### Single steps -/

namespace Machine

variable {stack : List Pending} {s : State}

theorem grows_given {α : Type} {found : Except EvalError α} {next : α → Machine}
    (h : ∀ a, found = .ok a → Grows s.registry (next a).state.registry) :
    Grows s.registry (given found stack s next).state.registry := by
  cases found with
  | ok a => exact h a rfl
  | error e => exact .refl

theorem grows_nextArgument (name : String) (before : List Value) (line : Nat)
    (behind : List Node) :
    Grows s.registry (nextArgument name before line stack s behind).state.registry := by
  cases behind with
  | nil => exact grows_given fun entry _ => .refl
  | cons n behind => exact .refl

theorem grows_nextStatement (result : Option Value) (behind : List Node) :
    Grows s.registry (nextStatement result stack s behind).state.registry := by
  cases behind <;> exact .refl

theorem grows_nextRun (body : Node) (last : Option Value) (count : Nat) :
    Grows s.registry (nextRun body last stack s count).state.registry := by
  cases count <;> exact .refl

theorem registry_declareAll (type : Option ValueType) (value : Option Value) (line : Nat)
    (names : List String) (s : State) :
    ((Eval.declareAll type value line names).after s).registry = s.registry := by
  induction names generalizing s with
  | nil => rfl
  | cons name names ih =>
    rw [Eval.after, Eval.declareAll, get_bind]
    cases s.scope.declareInitial name type value line with
    | ok scope => exact ih { s with scope }
    | error e => exact ih (s.log e)

theorem grows_declare (type : Option ValueType) (value : Option Value) (names : List String)
    (line : Nat) : Grows s.registry (declare type value names line stack s).state.registry := by
  rw [declare, registry_declareAll]
  exact .refl

theorem grows_take (n : Node) : Grows s.registry (take stack s n).state.registry := by
  match n with
  | .literal .. | .noOp .. | .returning .. | .negation .. | .binary .. | .branch .. | .loop ..
  | .print .. | .typeOf .. => exact .refl
  | .variable .. => exact grows_given fun v _ => .refl
  | .assignment target value line =>
    cases target with
    | «variable» => exact grows_given fun v _ => .refl
    | _ => exact .refl
  | .declaration declared names initializer line =>
    apply grows_given
    intro type _
    cases initializer with
    | none => exact grows_declare type none names line
    | some n => exact .refl
  | .block statements line => exact grows_nextStatement none statements
  | .function name returnType params body line =>
    apply grows_given
    intro entry _
    exact grows_given fun registry hnew => Grows.refl.register hnew
  | .call name arguments line => exact grows_nextArgument name [] line arguments

theorem grows_apply (v : Value) (use : Use) :
    Grows s.registry (apply v stack s use).state.registry := by
  cases use with
  | negation | rightOperand => exact grows_given fun entry _ => .refl
  | leftOperand | typeOf => exact .refl
  | assignment => exact grows_given fun fitted _ => grows_given fun scope _ => .refl
  | declaration type names line => exact grows_declare type (some v) names line
  | condition thenBody elseBody line =>
    cases v with
    | bool b =>
      cases b with
      | true => exact .refl
      | false => cases elseBody <;> exact .refl
    | _ => exact .refl
  | loopCount body line =>
    cases v with
    | int n => exact grows_nextRun body none _
    | _ => exact .refl
  | argument name before behind line => exact grows_nextArgument name (v :: before) line behind

theorem grows_call (entry : Overload) (args : List Value) (line : Nat) :
    Grows s.registry (call entry args line stack s).state.registry := by
  unfold call
  cases entry.body with
  | native f => exact grows_given fun v _ => .refl
  | user params body =>
    by_cases hlimit : callLimit ≤ s.depth
    · simp only [hlimit, ↓reduceIte]
      exact .refl
    · simp only [hlimit, ↓reduceIte]
      exact grows_given fun frame _ => .refl

theorem grows_step (m : Machine) : Grows m.state.registry m.step.state.registry := by
  obtain ⟨focus, stack, s⟩ := m
  cases focus with
  | node n => exact grows_take n
  | call entry args line => exact grows_call entry args line
  | result value =>
    cases stack with
    | nil => exact .refl
    | cons pending stack =>
      cases pending with
      | value line use =>
        cases value with
        | none => exact .refl
        | some v => exact grows_apply v use
      | statement => exact grows_nextStatement _ _
      | again => exact grows_nextRun _ _ _
      | print => exact .refl
      | call entry caller line =>
        change Grows s.registry
          (given (entry.returned value line) stack (left caller s) _).state.registry
        cases entry.returned value line <;> exact .refl
  | failure e =>
    cases stack with
    | nil => exact .refl
    | cons pending stack => cases pending <;> exact .refl

theorem grows_reaches {m m' : Machine} (h : Reaches m m') :
    Grows m.state.registry m'.state.registry := by
  obtain ⟨k, rfl⟩ := h
  induction k generalizing m with
  | zero => exact .refl
  | succ k ih => exact (grows_step m).trans ih

end Machine

/-! ### The registry of a session -/

/-- Whatever is registered from nothing or from the operators on, and in whatever state operations
lead to, the overloads of a name are told apart by the types of their parameters. A registration is
refused for the one reason that such an overload exists, and changes nothing then, also as part of
an evaluation. Registrations, operations, sequences of operations and stretches of a single
evaluation only add overloads, so that the operators are found as they were at first. -/
theorem overloads_append_only {r : Registry} {calls : List (Overload × Nat)}
    (hr : r = Registry.empty.registerAll calls ∨ r = Registry.builtins.registerAll calls)
    {s : State} (hs : Reachable s) :
    (r.Distinct ∧ s.registry.Distinct ∧ ∀ op : Operation, ∀ t ∈ op.moments s, t.registry.Distinct) ∧
      (∀ (r : Registry) (entry : Overload) (line : Nat),
        (r.register entry line = .error (.alreadyDefined entry.name entry.params line) ↔
            r.Defines entry.name entry.params) ∧
          (r.Defines entry.name entry.params → r.registerAll [(entry, line)] = r) ∧
          (¬ r.Defines entry.name entry.params →
            r.register entry line = .ok ⟨r.entries ++ [entry]⟩)) ∧
      (∀ (t : State) (name returnType : String) (params : List Parameter) (body : Node) (line : Nat)
        (entry : Overload), Overload.ofDefinition name returnType params body line = .ok entry →
        (t.registry.Defines entry.name entry.params →
            Eval.node (.function name returnType params body line) t =
              .error (.alreadyDefined entry.name entry.params line) t) ∧
          (¬ t.registry.Defines entry.name entry.params →
            Eval.node (.function name returnType params body line) t =
              .ok none { t with registry := ⟨t.registry.entries ++ [entry]⟩ })) ∧
      (∀ (r : Registry) (calls : List (Overload × Nat)), r.Extends (r.registerAll calls)) ∧
      (∀ (t : State) (op : Operation), t.registry.Extends (op.run t).registry ∧
        ∀ u ∈ op.moments t, t.registry.Extends u.registry) ∧
      (∀ (t : State) (ops : List Operation),
        t.registry.Extends (Operation.runAll ops t).registry) ∧
      (∀ m m' : Machine, m.Reaches m' → m.state.registry.Extends m'.state.registry) ∧
      ∀ entry ∈ Registry.builtins.entries,
        s.registry.find? entry.name entry.params = some entry ∧
          ∀ op : Operation, ∀ t ∈ op.moments s,
            t.registry.find? entry.name entry.params = some entry := by
  have hgrows := hs.grows
  have hmoments : ∀ op : Operation, ∀ t ∈ op.moments s, Grows .builtins t.registry :=
    fun op t ht => hgrows.trans ((op.grows s).2 t ht)
  refine ⟨⟨?_, hgrows.distinct Registry.distinct_builtins, ?_⟩, ?_, ?_, ?_, ?_, ?_, ?_, ?_⟩
  · rcases hr with rfl | rfl
    · exact (Registry.grows_registerAll _ calls).distinct Registry.distinct_empty
    · exact (Registry.grows_registerAll _ calls).distinct Registry.distinct_builtins
  · intro op t ht
    exact (hmoments op t ht).distinct Registry.distinct_builtins
  · intro r entry line
    refine ⟨⟨?_, fun h => Registry.register_of_defines h line⟩, ?_,
      fun h => Registry.register_of_not_defines h line⟩
    · intro herror
      by_contra hnot
      rw [Registry.register_of_not_defines hnot] at herror
      cases herror
    · intro h
      simp only [Registry.registerAll, Registry.register_of_defines h line]
  · intro t name returnType params body line entry hentry
    rw [node_function hentry]
    constructor
    · intro h
      rw [Registry.register_of_defines h]
    · intro h
      rw [Registry.register_of_not_defines h]
  · intro r calls
    exact (r.grows_registerAll calls).toExtends
  · intro t op
    exact ⟨(op.grows t).1.toExtends, fun u hu => ((op.grows t).2 u hu).toExtends⟩
  · intro t ops
    exact (Operation.grows_runAll ops t).toExtends
  · intro m m' h
    exact (Machine.grows_reaches h).toExtends
  · intro entry hentry
    have hfound := Registry.distinct_builtins.find?_mem hentry
    exact ⟨hgrows.toExtends.found hfound, fun op t ht => (hmoments op t ht).toExtends.found hfound⟩

/-- A session that calls a function twice, which defines a function and then an operator. -/
def definingSession : State :=
  (Operation.unit (.block
    [.function "extend" "void" []
      (.block
        [.function "f" "int" [⟨"int", "x"⟩] (.returning (.variable "x" 1) 1) 1,
         .function BinaryOperator.add.functionName "int" [⟨"int", "x"⟩, ⟨"int", "y"⟩]
           (.returning (.variable "x" 2) 2) 2] 1) 1,
     .call "extend" [] 3, .call "extend" [] 4]
    1)).run State.initial

/-- The first call fails to redefine the operator, and the second already at the function. Outside
of a session, too, a function that is registered twice is held once. -/
theorem overloads_append_only_definingSession :
    (let entry : Overload := ⟨"f", [.int], .int, .native .negate⟩
      let r := Registry.empty.registerAll [(entry, 1), (entry, 2)]
      r.Distinct ∧ r.entries = [entry]) ∧
    Reachable definingSession ∧
      definingSession.errors = #[.alreadyDefined BinaryOperator.add.functionName [.int, .int] 2,
        .alreadyDefined "f" [.int] 1] ∧
      (definingSession.registry.overloads "f").map Overload.params = [[.int]] ∧
      definingSession.registry.Distinct ∧
      definingSession.registry.find? BinaryOperator.add.functionName [.int, .int] =
        some ⟨BinaryOperator.add.functionName, [.int, .int], .int, .native .add⟩ := by
  have hreach : Reachable definingSession := .operation (.initial .empty) _
  obtain ⟨⟨hregistered, hdistinct, -⟩, -, -, -, -, -, -, hbuiltins⟩ :=
    overloads_append_only (.inl rfl) hreach
  refine ⟨⟨hregistered, rfl⟩, hreach, rfl, rfl, hdistinct, ?_⟩
  exact (hbuiltins ⟨_, [.int, .int], .int, .native .add⟩ (.head _)).1

end ConsoleScript
