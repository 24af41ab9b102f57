import ConsoleScript.Proofs.Evaluation.Trace

/-!
# What an evaluation can do

`Evolves s t` holds where a state `s` turns into `t` by the changes that an evaluation makes, each
with the checks that go before it. A call is one change: its body runs in a frame of its own, of
which the caller keeps nothing but functions, failures and output. `Occurs s t` holds of the states
on the way, those inside of calls included.

`Node.follows_trace` is the one induction over the evaluator. What is true of every evaluation
follows from it by induction on `Evolves` and `Occurs`.
-/

namespace ConsoleScript

variable {α β : Type}

theorem bind_eq_ok {ε : Type} {x : Except ε α} {f : α → Except ε β} {b : β} :
    (x >>= f) = .ok b ↔ ∃ a, x = .ok a ∧ f a = .ok b := by
  cases x with
  | error e => simp [bind, Except.bind]
  | ok a => simp [bind, Except.bind]

theorem declareInitial_ok {s scope : Scope} {name : String} {type : Option ValueType}
    {value : Option Value} {line : Nat} (h : s.declareInitial name type value line = .ok scope) :
    s.contains name = false ∧ ∃ v, Variable.initial name type value line = .ok v ∧
      s.declare name v line = .ok scope := by
  unfold Scope.declareInitial at h
  cases hname : s.contains name with
  | true =>
    rw [hname] at h
    cases h
  | false =>
    rw [hname] at h
    exact ⟨rfl, bind_eq_ok.mp h⟩

/-- The overload takes these arguments: their types are those of its parameters, or it is one that
takes any value on the right of a string. -/
def Overload.Accepts (entry : Overload) (args : List Value) : Prop :=
  entry.params = args.map Value.type ∨ entry.params = [.string, .object]

namespace State

/-- The state in which the body of a call starts. -/
def entered (s : State) (frame : Scope) : State :=
  { s with scope := frame, depth := s.depth + 1 }

/-- The state after a call from `s`, whose body ends in `t`. -/
def returned (s t : State) : State :=
  { t with scope := s.scope, depth := t.depth - 1 }

end State

namespace Eval

variable {α : Type} {s t : State} {frame : Scope} {act : Eval α}

theorem inFrame_of_ok {a : α} (h : act (s.entered frame) = .ok a t) :
    inFrame frame act s = .ok a (s.returned t) := by
  simp only [State.entered] at h
  simp only [inFrame, h, State.returned]

theorem inFrame_of_error {e : EvalError} (h : act (s.entered frame) = .error e t) :
    inFrame frame act s = .error e (s.returned t) := by
  simp only [State.entered] at h
  simp only [inFrame, h, State.returned]

end Eval

/-- A user function can be called in `s`, and its parameters make up `frame`. -/
inductive Enters (s : State) (frame : Scope) : Prop where
  | user {entry : Overload} {params : List String} {body : Node} {args : List Value} {line : Nat}
      (hmem : entry ∈ s.registry.entries) (hbody : entry.body = .user params body)
      (hargs : entry.Accepts args)
      (hbind : Scope.empty.bind line params entry.params args = .ok frame)
      (hdepth : s.depth < callLimit) : Enters s frame

inductive Evolves : State → State → Prop where
  | refl (s : State) : Evolves s s
  | trans {s t u : State} : Evolves s t → Evolves t u → Evolves s u
  | log (e : EvalError) (s : State) : Evolves s (s.log e)
  | write (text : String) (s : State) : Evolves s (s.write text)
  | declare {s : State} {declared : DeclaredType} {type : Option ValueType} {name : String}
      {value : Option Value} {line : Nat} {scope : Scope}
      (htype : declared.resolve line = .ok type)
      (hnew : s.scope.declareInitial name type value line = .ok scope) :
      Evolves s { s with scope }
  | assign {s : State} {name : String} {v : Variable} {value fitted : Value} {line : Nat}
      {scope : Scope} (hv : s.scope.find? name = some v)
      (hfit : v.type.fitDeclared value line = .ok fitted)
      (hset : s.scope.assign name fitted line = .ok scope) : Evolves s { s with scope }
  | register {s : State} {name returnType : String} {params : List Parameter} {body : Node}
      {line : Nat} {entry : Overload} {registry : Registry}
      (hentry : Overload.ofDefinition name returnType params body line = .ok entry)
      (hnew : s.registry.register entry line = .ok registry) : Evolves s { s with registry }
  | call {s t : State} {frame : Scope} (hframe : Enters s frame)
      (hbody : Evolves (s.entered frame) t) : Evolves s (s.returned t)

/-- The states on the way of an evaluation. -/
inductive Occurs : State → State → Prop where
  | here {s t : State} (h : Evolves s t) : Occurs s t
  | inside {s t u : State} {frame : Scope} (hbefore : Evolves s t) (hframe : Enters t frame)
      (hbody : Occurs (t.entered frame) u) : Occurs s u

theorem Occurs.prepend {s t u : State} (hst : Evolves s t) (h : Occurs t u) : Occurs s u := by
  cases h with
  | here h => exact .here (hst.trans h)
  | inside hbefore hframe hbody => exact .inside (hst.trans hbefore) hframe hbody

/-! ### What every evolution keeps -/

namespace Evolves

theorem depth_eq {s t : State} (h : Evolves s t) : t.depth = s.depth := by
  induction h with
  | refl | log | write | declare | assign | register => rfl
  | trans _ _ ihst ihtu => exact ihtu.trans ihst
  | @call s t frame _ _ ih =>
    change t.depth - 1 = s.depth
    rw [ih]
    rfl

/-- A name that is declared stays declared, and with the same type. -/
theorem type_kept {s t : State} (h : Evolves s t) {name : String} {v : Variable}
    (hv : s.scope.find? name = some v) :
    ∃ v', t.scope.find? name = some v' ∧ v'.type = v.type := by
  induction h generalizing v with
  | refl | log | write | register | call => exact ⟨v, hv, rfl⟩
  | trans _ _ ihst ihtu =>
    obtain ⟨v', hv', htype'⟩ := ihst hv
    obtain ⟨v'', hv'', htype''⟩ := ihtu hv'
    exact ⟨v'', hv'', htype''.trans htype'⟩
  | declare _ hnew =>
    obtain ⟨hname, new, -, hdeclare⟩ := declareInitial_ok hnew
    refine ⟨v, ?_, rfl⟩
    rw [Scope.find?_declare hdeclare, if_neg]
    · exact hv
    · rintro rfl
      simp [Scope.contains, hv] at hname
  | @assign s target old value fitted line scope hold hfit hset =>
    refine ⟨_, by rw [Scope.find?_assign hset, hv]; rfl, ?_⟩
    split <;> rfl

end Evolves

/-! ### Every evaluation is an evolution -/

namespace Traced

/-- From `s` the evaluation only makes changes of the listed kinds, and the states that it lists are
states on the way. If it ends in another state than `s`, that state is among them. -/
structure Follows (act : Traced α) (s : State) : Prop where
  ending : Evolves s (act.erase.after s)
  moments : ∀ t ∈ act.moments s, Occurs s t
  listed : act.erase.after s = s ∨ act.erase.after s ∈ act.moments s

theorem Follows.of_ok {act : Traced α} {s t : State} {a : α} (h : act.Follows s)
    (hok : act.erase s = .ok a t) : Evolves s t := by
  have hending := h.ending
  rwa [Eval.after, hok] at hending

theorem follows_idle {act : Traced α} {s : State} (hafter : act.erase.after s = s)
    (hmoments : act.moments s = []) : act.Follows s := by
  refine ⟨?_, ?_, .inl hafter⟩
  · rw [hafter]
    exact .refl s
  · intro t ht
    rw [hmoments] at ht
    cases ht

theorem follows_pure (a : α) (s : State) : (pure a : Traced α).Follows s :=
  follows_idle rfl rfl

theorem follows_fail (e : EvalError) (s : State) : (fail e : Traced α).Follows s :=
  follows_idle rfl rfl

theorem follows_ofExcept (result : Except EvalError α) (s : State) :
    (ofExcept result).Follows s := by
  cases result <;> exact follows_idle rfl rfl

theorem follows_update {f : State → State} {s : State} (h : Evolves s (f s)) :
    (update f).Follows s := by
  refine ⟨h, ?_, .inr (List.mem_singleton.mpr rfl)⟩
  intro t ht
  rw [List.mem_singleton.mp ht]
  exact .here h

theorem follows_bind {x : Traced α} {f : α → Traced β} {s : State} (hx : x.Follows s)
    (hf : ∀ a t, x.erase s = .ok a t → (f a).Follows t) : (x >>= f).Follows s := by
  obtain ⟨hending, hmoments, hlisted⟩ := hx
  unfold Eval.after erase at hending hlisted
  unfold moments at hmoments hlisted
  rcases hxs : x s with ⟨_ | _, before⟩ <;> rw [hxs] at hending hmoments hlisted
  case ok a t =>
    have hbind := bind_of_run_ok f hxs
    have hfollow := hf a t (congrArg Prod.fst hxs)
    have hafter : (x >>= f).erase.after s = (f a).erase.after t := by
      unfold Eval.after erase
      rw [hbind]
    have happend : (x >>= f).moments s = before ++ (f a).moments t := congrArg Prod.snd hbind
    refine ⟨?_, ?_, ?_⟩
    · rw [hafter]
      exact hending.trans hfollow.ending
    · intro u hu
      rw [happend] at hu
      rcases List.mem_append.mp hu with hu | hu
      · exact hmoments u hu
      · exact (hfollow.moments u hu).prepend hending
    · rw [hafter, happend]
      rcases hfollow.listed with hsame | hmem
      · rw [hsame]
        exact hlisted.imp_right (List.mem_append_left _)
      · exact .inr (List.mem_append_right _ hmem)
  case error e t =>
    have hbind := bind_of_run_error f hxs
    have hafter : (x >>= f).erase.after s = t := by
      unfold Eval.after erase
      rw [hbind]
    have hbefore : (x >>= f).moments s = before := congrArg Prod.snd hbind
    refine ⟨?_, ?_, ?_⟩
    · rw [hafter]
      exact hending
    · rw [hbefore]
      exact hmoments
    · rw [hafter, hbefore]
      exact hlisted

theorem follows_read_bind {f : State → Traced β} {s : State} (h : (f s).Follows s) :
    (read >>= f).Follows s := by
  refine follows_bind (follows_idle rfl rfl) ?_
  rintro a t hok
  cases hok
  exact h

theorem follows_ofExcept_bind {result : Except EvalError α} {f : α → Traced β} {s : State}
    (h : ∀ a, result = .ok a → (f a).Follows s) : (ofExcept result >>= f).Follows s := by
  refine follows_bind (follows_ofExcept result s) ?_
  intro a t hok
  cases result with
  | error e => cases hok
  | ok b =>
    cases hok
    exact h a rfl

theorem follows_required {line : Nat} {act : Traced (Option Value)} {s : State}
    (h : act.Follows s) : (required line act).Follows s := by
  refine follows_bind h ?_
  intro value t _
  cases value with
  | none => exact follows_fail _ t
  | some value => exact follows_pure value t

theorem follows_inFrame {frame : Scope} {act : Traced α} {s : State} (hframe : Enters s frame)
    (h : act.Follows (s.entered frame)) : (inFrame frame act).Follows s := by
  have hreturned : (inFrame frame act).erase.after s =
      s.returned (act.erase.after (s.entered frame)) := by
    rw [erase_inFrame]
    unfold Eval.after
    cases hrun : act.erase (s.entered frame) with
    | ok a t => rw [Eval.inFrame_of_ok hrun]
    | error e t => rw [Eval.inFrame_of_error hrun]
  have hending : Evolves s ((inFrame frame act).erase.after s) := by
    rw [hreturned]
    exact .call hframe h.ending
  refine ⟨hending, ?_, .inr (List.mem_append_right _ (List.mem_singleton.mpr rfl))⟩
  intro t ht
  change t ∈ s.entered frame :: act.moments (s.entered frame) ++
    [(inFrame frame act).erase.after s] at ht
  rcases List.mem_append.mp ht with ht | ht
  · rcases List.mem_cons.mp ht with rfl | ht
    · exact .inside (.refl s) hframe (.here (.refl _))
    · exact .inside (.refl s) hframe (h.moments t ht)
  · rw [List.mem_singleton.mp ht]
    exact .here hending

/-- The evaluation follows from every state in which `d` calls are in progress. -/
def FollowsAt (d : Nat) (act : Traced α) : Prop :=
  ∀ s, s.depth = d → act.Follows s

theorem follows_bind_at {d : Nat} {x : Traced α} {f : α → Traced β} {s : State}
    (hs : s.depth = d) (hx : FollowsAt d x)
    (hf : ∀ a t, Evolves s t → t.depth = d → (f a).Follows t) : (x >>= f).Follows s := by
  refine follows_bind (hx s hs) ?_
  intro a t hok
  have hevolves := (hx s hs).of_ok hok
  exact hf a t hevolves (hevolves.depth_eq.trans hs)

theorem FollowsAt.bind {d : Nat} {x : Traced α} {f : α → Traced β} (hx : FollowsAt d x)
    (hf : ∀ a, FollowsAt d (f a)) : FollowsAt d (x >>= f) := by
  intro s hs
  exact follows_bind_at hs hx fun a t _ ht => hf a t ht

theorem followsAt_pure (d : Nat) (a : α) : FollowsAt d (pure a : Traced α) :=
  fun s _ => follows_pure a s

theorem followsAt_fail (d : Nat) (e : EvalError) : FollowsAt d (fail e : Traced α) :=
  fun s _ => follows_fail e s

theorem FollowsAt.required {d line : Nat} {act : Traced (Option Value)} (h : FollowsAt d act) :
    FollowsAt d (required line act) :=
  fun s hs => follows_required (h s hs)

theorem FollowsAt.times {d : Nat} {act : Traced (Option Value)} (h : FollowsAt d act)
    (last : Option Value) (count : Nat) : FollowsAt d (times act last count) := by
  induction count generalizing last with
  | zero => exact followsAt_pure d last
  | succ count ih => exact h.bind ih

theorem followsAt_declareAll {declared : DeclaredType} {type : Option ValueType} {line : Nat}
    (htype : declared.resolve line = .ok type) (value : Option Value) (d : Nat)
    (names : List String) : FollowsAt d (declareAll type value line names) := by
  induction names with
  | nil => exact followsAt_pure d ()
  | cons name names ih =>
    intro s hs
    refine follows_read_bind ?_
    cases hnew : s.scope.declareInitial name type value line with
    | ok scope =>
      have hfirst : (update fun s => { s with scope }).Follows s :=
        follows_update (.declare htype hnew)
      exact follows_bind hfirst fun _ t hok => ih t ((hfirst.of_ok hok).depth_eq.trans hs)
    | error e =>
      have hfirst : (update (State.log e)).Follows s := follows_update (.log e s)
      exact follows_bind hfirst fun _ t hok => ih t ((hfirst.of_ok hok).depth_eq.trans hs)

end Traced

theorem builtins_native : ∀ entry ∈ Registry.builtins.entries, ∃ f, entry.body = .native f := by
  simp [Registry.builtins, Registry.numeric]

theorem find?_some_mem {r : Registry} {name : String} {types : List ValueType} {entry : Overload}
    (h : r.find? name types = some entry) :
    entry ∈ r.entries ∧ entry.name = name ∧ entry.params = types := by
  have hmatch := List.find?_some h
  simp only [Bool.and_eq_true, decide_eq_true_eq] at hmatch
  exact ⟨List.mem_of_find?_eq_some h, hmatch⟩

theorem resolve_ok {r : Registry} {name : String} {types : List ValueType} {line : Nat}
    {entry : Overload} (h : r.resolve name types line = .ok entry) :
    entry ∈ r.entries ∧ entry.params = types := by
  unfold Registry.resolve at h
  split at h
  · rename_i found hfound
    cases h
    obtain ⟨hmem, _, hparams⟩ := find?_some_mem hfound
    exact ⟨hmem, hparams⟩
  · cases h

theorem resolveOperator_ok {r : Registry} {op : BinaryOperator} {left right : ValueType}
    {line : Nat} {entry : Overload} (h : r.resolveOperator op left right line = .ok entry) :
    entry ∈ r.entries ∧ entry.name = op.functionName ∧
      (entry.params = [left, right] ∨ left = .string ∧ entry.params = [.string, .object]) := by
  unfold Registry.resolveOperator at h
  split at h
  · rename_i found hfound
    cases h
    obtain ⟨hmem, hname, hparams⟩ := find?_some_mem hfound
    exact ⟨hmem, hname, .inl hparams⟩
  · split at h
    · rename_i hany
      split at h
      · rename_i found hfound
        cases h
        obtain ⟨hmem, hname, hparams⟩ := find?_some_mem hfound
        simp only [Bool.and_eq_true, decide_eq_true_eq] at hany
        exact ⟨hmem, hname, .inr ⟨hany.2, hparams⟩⟩
      · cases h
    · cases h

/-- Calls of functions that are registered, with arguments that they accept. -/
def TracedInvoke.FollowsAt (d : Nat) (invoke : TracedInvoke) : Prop :=
  ∀ (entry : Overload) (args : List Value) (line : Nat) (s : State), s.depth = d →
    entry ∈ s.registry.entries → entry.Accepts args → (invoke entry args line).Follows s

namespace Node

open Traced

variable {invoke : TracedInvoke} {d : Nat}

mutual

theorem follows_trace (hinvoke : invoke.FollowsAt d) (n : Node) :
    FollowsAt d (n.trace invoke) := by
  match n with
  | literal value line => exact followsAt_pure d _
  | noOp line => exact followsAt_pure d _
  | .variable name line =>
    intro s hs
    rw [trace]
    exact follows_read_bind (follows_ofExcept_bind fun v _ => follows_pure _ s)
  | negation operand line =>
    intro s hs
    rw [trace]
    refine follows_bind_at hs (follows_trace hinvoke operand).required ?_
    intro value t _ ht
    refine follows_read_bind (follows_ofExcept_bind ?_)
    intro entry hentry
    obtain ⟨hmem, hparams⟩ := resolve_ok hentry
    exact follows_bind (hinvoke entry _ line t ht hmem (.inl hparams)) fun v u _ =>
      follows_pure _ u
  | binary left op right line =>
    intro s hs
    rw [trace]
    refine follows_bind_at hs (follows_trace hinvoke left).required ?_
    intro a t _ ht
    refine follows_bind_at ht (follows_trace hinvoke right).required ?_
    intro b u _ hu
    refine follows_read_bind (follows_ofExcept_bind ?_)
    intro entry hentry
    obtain ⟨hmem, _, hparams⟩ := resolveOperator_ok hentry
    have haccepts : entry.Accepts [a, b] := hparams.imp_right And.right
    exact follows_bind (hinvoke entry _ line u hu hmem haccepts) fun v w _ => follows_pure _ w
  | assignment target value line =>
    match target with
    | .variable name _ =>
      intro s hs
      rw [trace]
      refine follows_read_bind (follows_ofExcept_bind ?_)
      intro v hv
      refine follows_bind_at hs (follows_trace hinvoke value).required ?_
      intro value t hevolves ht
      refine follows_ofExcept_bind ?_
      intro fitted hfit
      refine follows_read_bind (follows_ofExcept_bind ?_)
      intro scope hset
      have hfound : s.scope.find? name = some v := by
        unfold Scope.get at hv
        split at hv
        · cases hv
          assumption
        · cases hv
      -- The value may have been assigned to the same variable, but its type is still that of `v`.
      obtain ⟨v', hv', htype⟩ := hevolves.type_kept hfound
      rw [← htype] at hfit
      exact follows_bind (follows_update (.assign hv' hfit hset)) fun _ u _ => follows_pure _ u
    | .literal .. | .negation .. | .binary .. | .assignment .. | .declaration .. | .block ..
    | .branch .. | .loop .. | .print .. | .typeOf .. | .returning .. | .function .. | .call ..
    | .noOp .. => exact followsAt_fail d _
  | declaration declared names initializer line =>
    intro s hs
    rw [trace]
    refine follows_ofExcept_bind ?_
    intro type htype
    refine follows_bind_at hs (follows_traceInitializer hinvoke initializer) ?_
    intro value t _ ht
    exact follows_bind (followsAt_declareAll htype value d names t ht) fun _ u _ =>
      follows_pure _ u
  | block statements line =>
    rw [trace]
    exact follows_traceStatements hinvoke none statements
  | branch condition thenBody elseBody line =>
    rw [trace]
    refine (follows_trace hinvoke condition).required.bind ?_
    intro value
    split
    · exact follows_trace hinvoke thenBody
    · exact follows_traceElse hinvoke elseBody
    · exact followsAt_fail d _
  | loop count body line =>
    rw [trace]
    refine (follows_trace hinvoke count).required.bind ?_
    intro value
    split
    · exact (follows_trace hinvoke body).times _ _
    · exact followsAt_fail d _
  | print expr line =>
    rw [trace]
    refine (follows_trace hinvoke expr).bind ?_
    intro value s _
    exact follows_bind (follows_update (.write _ s)) fun _ t _ => follows_pure _ t
  | typeOf expr line =>
    rw [trace]
    exact (follows_trace hinvoke expr).required.bind fun value => followsAt_pure d _
  | returning expr line =>
    rw [trace]
    exact follows_trace hinvoke expr
  | function name returnType params body line =>
    intro s hs
    rw [trace]
    refine follows_ofExcept_bind ?_
    intro entry hentry
    refine follows_read_bind (follows_ofExcept_bind ?_)
    intro registry hnew
    exact follows_bind (follows_update (.register hentry hnew)) fun _ t _ => follows_pure _ t
  | call name arguments line =>
    intro s hs
    rw [trace]
    refine follows_bind_at hs (follows_traceArguments hinvoke arguments) ?_
    intro args t _ ht
    refine follows_read_bind (follows_ofExcept_bind ?_)
    intro entry hentry
    obtain ⟨hmem, hparams⟩ := resolve_ok hentry
    exact follows_bind (hinvoke entry _ line t ht hmem (.inl hparams)) fun v u _ =>
      follows_pure _ u

theorem follows_traceInitializer (hinvoke : invoke.FollowsAt d) (initializer : Option Node) :
    FollowsAt d (traceInitializer invoke initializer) := by
  match initializer with
  | none => exact followsAt_pure d _
  | some node =>
    rw [traceInitializer]
    exact (follows_trace hinvoke node).required.bind fun value => followsAt_pure d _

theorem follows_traceElse (hinvoke : invoke.FollowsAt d) (elseBody : Option Node) :
    FollowsAt d (traceElse invoke elseBody) := by
  match elseBody with
  | none => exact followsAt_pure d _
  | some node =>
    rw [traceElse]
    exact follows_trace hinvoke node

theorem follows_traceStatements (hinvoke : invoke.FollowsAt d) (result : Option Value)
    (nodes : List Node) : FollowsAt d (traceStatements invoke result nodes) := by
  match nodes with
  | [] => exact followsAt_pure d _
  | node :: nodes =>
    rw [traceStatements]
    exact (follows_trace hinvoke node).bind fun value => follows_traceStatements hinvoke _ nodes

theorem follows_traceArguments (hinvoke : invoke.FollowsAt d) (nodes : List Node) :
    FollowsAt d (traceArguments invoke nodes) := by
  match nodes with
  | [] => exact followsAt_pure d _
  | node :: nodes =>
    rw [traceArguments]
    refine (follows_trace hinvoke node).required.bind ?_
    intro value
    exact (follows_traceArguments hinvoke nodes).bind fun values => followsAt_pure d _

end

end Node

theorem followsAt_tracedInvoke {calls d : Nat} (h : calls ≤ callLimit - d) :
    (tracedInvoke calls).FollowsAt d := by
  induction calls generalizing d with
  | zero =>
    intro entry args line s _ _ _
    unfold tracedInvoke
    cases entry.body with
    | native f => exact Traced.follows_ofExcept _ s
    | user params body => exact Traced.follows_fail _ s
  | succ calls ih =>
    intro entry args line s hs hmem hargs
    unfold tracedInvoke
    cases hbody : entry.body with
    | native f => exact Traced.follows_ofExcept _ s
    | user params body =>
      refine Traced.follows_ofExcept_bind ?_
      intro frame hbind
      have hframe : Enters s frame := .user hmem hbody hargs hbind (by omega)
      have hinner : (tracedInvoke calls).FollowsAt (d + 1) := ih (by omega)
      have hrun := Node.follows_trace hinner body (s.entered frame) (by rw [← hs]; rfl)
      exact Traced.follows_bind (Traced.follows_inFrame hframe hrun) fun _ t _ =>
        Traced.follows_ofExcept _ t

theorem Traced.follows_node (n : Node) (s : State) : (Traced.node n).Follows s := by
  have h := Node.follows_trace (followsAt_tracedInvoke (Nat.le_refl (callLimit - s.depth))) n s rfl
  exact ⟨h.ending, h.moments, h.listed⟩

theorem Evolves.node (n : Node) (s : State) : Evolves s ((Eval.node n).after s) := by
  have h := (Traced.follows_node n s).ending
  rwa [Traced.erase_node] at h

/-! ### Sequences of evaluations -/

theorem Evolves.orLog (n : Node) (s : State) : Evolves s (Eval.orLog (Eval.node n) s).2 := by
  have h := Evolves.node n s
  unfold Eval.after at h
  unfold Eval.orLog
  cases hresult : Eval.node n s with
  | ok value t =>
    rw [hresult] at h
    exact h
  | error e t =>
    rw [hresult] at h
    exact h.trans (.log e t)

theorem Evolves.statements (nodes : List Node) (result : Option Value) (s : State) :
    Evolves s (Eval.statements result nodes s).2 := by
  induction nodes generalizing result s with
  | nil => exact .refl s
  | cons n nodes ih => exact (Evolves.orLog n s).trans (ih _ _)

theorem Evolves.unit (n : Node) (s : State) : Evolves s (Eval.unit n s).2 := by
  unfold Eval.unit
  split <;> exact Evolves.statements _ _ s

theorem Occurs.of_statementsMoments (nodes : List Node) (s : State) :
    ∀ t ∈ Traced.statementsMoments nodes s, Occurs s t := by
  induction nodes generalizing s with
  | nil =>
    intro t ht
    cases ht
  | cons n nodes ih =>
    intro t ht
    rcases List.mem_append.mp ht with ht | ht
    · exact (Traced.follows_node n s).moments t ht
    · have hnext := Evolves.orLog n s
      rcases List.mem_cons.mp ht with rfl | ht
      · exact .here hnext
      · exact (ih _ t ht).prepend hnext

theorem Occurs.of_unitMoments (n : Node) (s : State) :
    ∀ t ∈ Traced.unitMoments n s, Occurs s t := by
  unfold Traced.unitMoments
  split <;> exact Occurs.of_statementsMoments _ s

inductive Operation where
  | eval (n : Node)
  | unit (n : Node)
  | clearErrors
  | reportErrors

namespace Operation

def run : Operation → State → State
  | eval n, s => (Eval.node n).after s
  | unit n, s => (Eval.unit n s).2
  | clearErrors, s => s.clearErrors
  | reportErrors, s => s.report

def moments : Operation → State → List State
  | eval n, s => (Traced.node n).moments s
  | unit n, s => Traced.unitMoments n s
  | clearErrors, s => [s.clearErrors]
  | reportErrors, s => [s.report]

end Operation

theorem Traced.statements_listed (nodes : List Node) (result : Option Value) (s : State) :
    (Eval.statements result nodes s).2 = s ∨
      (Eval.statements result nodes s).2 ∈ statementsMoments nodes s := by
  induction nodes generalizing result s with
  | nil => exact .inl rfl
  | cons n nodes ih =>
    -- The list of the first statement ends with the state in which the rest starts.
    have hlast : ∀ value, (Eval.statements value nodes (Eval.orLog (Eval.node n) s).2).2 ∈
        (Eval.orLog (Eval.node n) s).2 ::
          statementsMoments nodes (Eval.orLog (Eval.node n) s).2 := by
      intro value
      rcases ih value (Eval.orLog (Eval.node n) s).2 with hsame | hmem
      · rw [hsame]
        exact List.mem_cons_self
      · exact List.mem_cons_of_mem _ hmem
    exact .inr (List.mem_append_right _ (hlast _))

/-- An operation that changes the state lists the state in which it ends. -/
theorem Operation.run_listed (op : Operation) (s : State) :
    op.run s = s ∨ op.run s ∈ op.moments s := by
  cases op with
  | eval n =>
    have h := (Traced.follows_node n s).listed
    rwa [Traced.erase_node] at h
  | unit n =>
    cases n with
    | block nodes line => exact Traced.statements_listed nodes none s
    | _ => exact Traced.statements_listed [_] none s
  | clearErrors => exact .inr (List.mem_singleton.mpr rfl)
  | reportErrors => exact .inr (List.mem_singleton.mpr rfl)

/-- The states to which operations lead from a new evaluator, whatever output it writes to. -/
inductive Reachable : State → Prop where
  | initial (output : Output) : Reachable { State.initial with output }
  | operation {s : State} (h : Reachable s) (op : Operation) : Reachable (op.run s)

/-- Reporting changes nothing but the log and the output. -/
theorem State.report_eq (s : State) : ∃ output, s.report = { s with errors := #[], output } := by
  have hfold : ∀ (errors : List EvalError) (t : State), ∃ output,
      errors.foldl (fun s e => s.reportMessage e.message) t = { t with output } := by
    intro errors
    induction errors with
    | nil => exact fun t => ⟨t.output, rfl⟩
    | cons e errors ih =>
      intro t
      obtain ⟨output, houtput⟩ := ih (t.reportMessage e.message)
      exact ⟨output, houtput⟩
  obtain ⟨output, houtput⟩ := hfold s.errors.toList s.clearErrors
  refine ⟨output, ?_⟩
  rw [State.report, ← Array.foldl_toList, houtput]
  rfl

/-- A property of states that evaluation keeps, and that neither log nor output have a part in,
holds after every operation and at every moment of it. -/
theorem Operation.preserves {P : State → Prop} (op : Operation) {s : State} (hs : P s)
    (hevolves : ∀ s t, Evolves s t → P s → P t) (hoccurs : ∀ s t, Occurs s t → P s → P t)
    (hfree : ∀ (s : State) errors output, P s → P { s with errors, output }) :
    P (op.run s) ∧ ∀ t ∈ op.moments s, P t := by
  have hreport : P s.report := by
    obtain ⟨output, houtput⟩ := s.report_eq
    rw [houtput]
    exact hfree s _ _ hs
  cases op with
  | eval n =>
    exact ⟨hevolves s _ (Evolves.node n s) hs, fun t ht =>
      hoccurs s t ((Traced.follows_node n s).moments t ht) hs⟩
  | unit n =>
    exact ⟨hevolves s _ (Evolves.unit n s) hs, fun t ht =>
      hoccurs s t (Occurs.of_unitMoments n s t ht) hs⟩
  | clearErrors =>
    have hclear : P s.clearErrors := hfree s _ _ hs
    exact ⟨hclear, fun t ht => List.mem_singleton.mp ht ▸ hclear⟩
  | reportErrors => exact ⟨hreport, fun t ht => List.mem_singleton.mp ht ▸ hreport⟩

end ConsoleScript
