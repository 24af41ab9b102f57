import ConsoleScript.Proofs.Evaluation.Evolution

/-!
# Variables hold values of their types

A variable has a type that a program can name and that has values, and its value is null or of that
type. Every evaluation keeps this, in the scope it starts in and in the scopes of all calls, and it
never takes a variable away or gives it another type.

That a frame is well typed rests on the registry: the parameters of a user function have storable
types, so an overload for any value, which `+` and `*` fall back on, is never a user function.
-/

namespace ConsoleScript

def ValueType.Storable (type : ValueType) : Prop :=
  type ∈ [int, float, bool, string]

structure Variable.WellTyped (v : Variable) : Prop where
  storable : v.type.Storable
  fits : v.value = .null ∨ v.value.type = v.type

def Scope.WellTyped (s : Scope) : Prop :=
  ∀ name v, s.find? name = some v → v.WellTyped

/-- Frames are made from types that variables can have. -/
def Overload.StorableParams (entry : Overload) : Prop :=
  ∀ params body, entry.body = .user params body → ∀ type ∈ entry.params, type.Storable

structure State.WellTyped (s : State) : Prop where
  scope : s.scope.WellTyped
  functions : ∀ entry ∈ s.registry.entries, entry.StorableParams

theorem storable_of_resolveStorable {name : String} {line : Nat} {type : ValueType}
    (h : resolveStorable name line = .ok type) : type.Storable := by
  obtain ⟨found, hfound, h⟩ := bind_eq_ok.mp h
  unfold resolveType at hfound
  split at hfound
  · rename_i hname
    cases hfound
    have hmem := List.mem_of_find?_eq_some hname
    split at h
    · cases h
    · rename_i hvoid
      cases h
      simp only [List.mem_cons, hvoid, false_or] at hmem
      simpa [ValueType.Storable] using hmem
  · cases hfound

theorem storable_of_resolve {declared : DeclaredType} {line : Nat} {type : ValueType}
    (h : declared.resolve line = .ok (some type)) : type.Storable := by
  cases declared with
  | inferred => cases h
  | named name =>
    change some <$> resolveStorable name line = _ at h
    cases hfound : resolveStorable name line with
    | error e =>
      rw [hfound] at h
      cases h
    | ok found =>
      rw [hfound] at h
      cases h
      exact storable_of_resolveStorable hfound

theorem fit_fits {type : ValueType} {value fitted : Value} {line : Nat}
    (h : type.fit value line = .ok (some fitted)) : fitted = .null ∨ fitted.type = type := by
  unfold ValueType.fit at h
  split at h
  · rename_i hsame
    cases h
    simp only [Bool.or_eq_true, decide_eq_true_eq] at hsame
    rcases hsame with hsame | hnull
    · exact .inr hsame
    · cases value with
      | null => exact .inl rfl
      | _ => cases hnull
  split at h
  · cases h
  · split at h
    · obtain ⟨x, _, hx⟩ := bind_eq_ok.mp h
      cases hx
      exact .inr rfl
    · cases h
      exact .inr rfl
    · cases h

/-- What is stored under a type is null or of that type, whatever was to be stored. -/
theorem fitDeclared_fits {type : ValueType} {value fitted : Value} {line : Nat}
    (h : type.fitDeclared value line = .ok fitted) : fitted = .null ∨ fitted.type = type := by
  obtain ⟨found, hfit, h⟩ := bind_eq_ok.mp h
  cases found with
  | none => cases h
  | some found =>
    cases h
    exact fit_fits hfit

theorem initial_wellTyped {name : String} {declared : DeclaredType} {type : Option ValueType}
    {value : Option Value} {line : Nat} {v : Variable} (htype : declared.resolve line = .ok type)
    (h : Variable.initial name type value line = .ok v) : v.WellTyped := by
  cases type with
  | some type =>
    have hstorable := storable_of_resolve htype
    cases value with
    | none =>
      cases h
      exact ⟨hstorable, .inl rfl⟩
    | some value =>
      obtain ⟨fitted, hfit, h⟩ := bind_eq_ok.mp h
      cases h
      exact ⟨hstorable, fitDeclared_fits hfit⟩
  | none =>
    cases value with
    | none => cases h
    | some value =>
      cases value with
      | null => cases h
      | _ =>
        cases h
        exact ⟨by simp [ValueType.Storable, Value.type], .inr rfl⟩

/-! ### Scopes -/

namespace Scope.WellTyped

theorem empty : Scope.empty.WellTyped := by
  intro name v hv
  cases hv

theorem declare {s scope : Scope} {name : String} {v : Variable} {line : Nat}
    (hs : s.WellTyped) (hv : v.WellTyped) (h : s.declare name v line = .ok scope) :
    scope.WellTyped := by
  intro key found hfound
  rw [Scope.find?_declare h] at hfound
  split at hfound
  · cases hfound
    exact hv
  · exact hs key found hfound

theorem assign {s scope : Scope} {name : String} {v : Variable} {value : Value} {line : Nat}
    (hs : s.WellTyped) (hv : s.find? name = some v)
    (hvalue : value = .null ∨ value.type = v.type) (h : s.assign name value line = .ok scope) :
    scope.WellTyped := by
  intro key found hfound
  rw [Scope.find?_assign h] at hfound
  obtain ⟨old, hold, rfl⟩ := Option.map_eq_some_iff.mp hfound
  split
  · rename_i hkey
    subst hkey
    rw [hv] at hold
    cases hold
    exact ⟨(hs key v hv).storable, hvalue⟩
  · exact hs key old hold

/-- Parameters whose types are those of the arguments make a well-typed scope. -/
theorem bind {names : List String} {types : List ValueType} {values : List Value} {s scope : Scope}
    {line : Nat} (hs : s.WellTyped) (htypes : ∀ type ∈ types, type.Storable)
    (hvalues : types = values.map Value.type)
    (h : s.bind line names types values = .ok scope) : scope.WellTyped := by
  induction names generalizing types values s with
  | nil =>
    cases h
    exact hs
  | cons name names ih =>
    cases values with
    | nil =>
      subst hvalues
      cases h
      exact hs
    | cons value values =>
      subst hvalues
      obtain ⟨next, hnext, h⟩ := bind_eq_ok.mp h
      have hv : Variable.WellTyped ⟨value.type, value⟩ :=
        ⟨htypes _ List.mem_cons_self, .inr rfl⟩
      exact ih (hs.declare hv hnext) (fun type ht => htypes type (List.mem_cons_of_mem _ ht)) rfl h

end Scope.WellTyped

/-! ### Functions -/

theorem parameterTypes_storable {params : List Parameter} {line : Nat} {seen : List String}
    {types : List ValueType} (h : parameterTypes line seen params = .ok types) :
    ∀ type ∈ types, type.Storable := by
  induction params generalizing seen types with
  | nil =>
    cases h
    intro type ht
    cases ht
  | cons param params ih =>
    obtain ⟨type, htype, h⟩ := bind_eq_ok.mp h
    split at h
    · cases h
    · obtain ⟨rest, hrest, h⟩ := bind_eq_ok.mp h
      cases h
      intro other hother
      rcases List.mem_cons.mp hother with rfl | hother
      · exact storable_of_resolveStorable htype
      · exact ih hrest other hother

theorem ofDefinition_storableParams {name returnType : String} {params : List Parameter}
    {body : Node} {line : Nat} {entry : Overload}
    (h : Overload.ofDefinition name returnType params body line = .ok entry) :
    entry.StorableParams := by
  obtain ⟨returns, _, h⟩ := bind_eq_ok.mp h
  obtain ⟨types, htypes, h⟩ := bind_eq_ok.mp h
  cases h
  exact fun _ _ _ => parameterTypes_storable htypes

theorem builtins_storableParams : ∀ entry ∈ Registry.builtins.entries, entry.StorableParams := by
  intro entry hentry params body hbody
  obtain ⟨f, hf⟩ := builtins_native entry hentry
  rw [hf] at hbody
  cases hbody

theorem Enters.wellTyped {s : State} {frame : Scope} (h : Enters s frame) (hs : s.WellTyped) :
    frame.WellTyped := by
  obtain ⟨hmem, hbody, hargs, hbind, _⟩ := h
  have hparams := hs.functions _ hmem _ _ hbody
  rcases hargs with hargs | hany
  · exact Scope.WellTyped.empty.bind hparams hargs hbind
  · have hobject := hparams .object (by simp [hany])
    simp [ValueType.Storable] at hobject

/-! ### Evaluations -/

theorem Evolves.wellTyped {s t : State} (h : Evolves s t) (hs : s.WellTyped) : t.WellTyped := by
  induction h with
  | refl => exact hs
  | trans _ _ ihst ihtu => exact ihtu (ihst hs)
  | log | write => exact ⟨hs.scope, hs.functions⟩
  | declare htype hnew =>
    obtain ⟨_, v, hv, hdeclare⟩ := declareInitial_ok hnew
    exact ⟨hs.scope.declare (initial_wellTyped htype hv) hdeclare, hs.functions⟩
  | assign hv hfit hset => exact ⟨hs.scope.assign hv (fitDeclared_fits hfit) hset, hs.functions⟩
  | register hentry hnew =>
    refine ⟨hs.scope, ?_⟩
    intro entry hmem
    rw [Registry.entries_register hnew] at hmem
    rcases List.mem_append.mp hmem with hmem | hmem
    · exact hs.functions entry hmem
    · rw [List.mem_singleton.mp hmem]
      exact ofDefinition_storableParams hentry
  | call hframe _ ih => exact ⟨hs.scope, (ih ⟨hframe.wellTyped hs, hs.functions⟩).functions⟩

theorem Occurs.wellTyped {s t : State} (h : Occurs s t) (hs : s.WellTyped) : t.WellTyped := by
  induction h with
  | here h => exact h.wellTyped hs
  | inside hbefore hframe _ ih =>
    have hmiddle := hbefore.wellTyped hs
    exact ih ⟨hframe.wellTyped hmiddle, hmiddle.functions⟩

theorem Operation.wellTyped (op : Operation) {s : State} (hs : s.WellTyped) :
    (op.run s).WellTyped ∧ ∀ t ∈ op.moments s, t.WellTyped :=
  op.preserves hs (fun _ _ h => h.wellTyped) (fun _ _ h => h.wellTyped)
    fun _ _ _ h => ⟨h.scope, h.functions⟩

theorem Reachable.wellTyped {s : State} (h : Reachable s) : s.WellTyped := by
  induction h with
  | initial => exact ⟨Scope.WellTyped.empty, builtins_storableParams⟩
  | operation _ op ih => exact (op.wellTyped ih).1

/-- In a state that operations lead to every variable holds null or a value of its type, and so it
is in every state on the way of a further operation, the frames of calls included. The list of these
states ends where the operation ends, and to keep it changes nothing of the evaluation. No
evaluation takes a variable away or changes its type. -/
theorem store_typing {s : State} (h : Reachable s) :
    s.scope.WellTyped ∧
      (∀ op : Operation, (∀ t ∈ op.moments s, t.scope.WellTyped) ∧
        (op.run s = s ∨ op.run s ∈ op.moments s)) ∧
      (∀ n : Node, (Traced.node n).erase = Eval.node n) ∧
      ∀ (t : State) (n : Node) (name : String) (v : Variable), t.scope.find? name = some v →
        ∃ v', ((Eval.node n).after t).scope.find? name = some v' ∧ v'.type = v.type := by
  refine ⟨h.wellTyped.scope, ?_, Traced.erase_node, ?_⟩
  · intro op
    exact ⟨fun t ht => ((op.wellTyped h.wellTyped).2 t ht).scope, op.run_listed s⟩
  · intro t n name v hv
    exact (Evolves.node n t).type_kept hv

/-- A session in which a function assigns to its parameter and the result is stored. -/
def doublingSession : State :=
  (Operation.unit (.block
    [.function "twice" "int" [⟨"int", "x"⟩]
      (.block [.assignment (.variable "x" 1) (.binary (.variable "x" 1) .add (.variable "x" 1) 1) 1,
        .returning (.variable "x" 1) 1] 1) 1,
     .declaration (.named "int") ["a"] (some (.call "twice" [.literal (.int 21) 1] 1)) 1]
    1)).run State.initial

/-- Another call goes through its frame, before and after the assignment there, and out of it. -/
theorem store_typing_doublingSession :
    Reachable doublingSession ∧ doublingSession.scope.find? "a" = some ⟨.int, .int 42⟩ ∧
      doublingSession.scope.WellTyped ∧
      ((Operation.eval (.call "twice" [.variable "a" 2] 2)).moments doublingSession).map
          (fun t => t.scope.find? "x") =
        [some ⟨.int, .int 42⟩, some ⟨.int, .int 84⟩, none] ∧
      ∀ t ∈ (Operation.eval (.call "twice" [.variable "a" 2] 2)).moments doublingSession,
        t.scope.WellTyped := by
  have hreach : Reachable doublingSession := .operation (.initial .empty) _
  have htyping := store_typing hreach
  exact ⟨hreach, rfl, htyping.1, rfl, (htyping.2.1 _).1⟩

end ConsoleScript
