import ConsoleScript.Proofs.Syntax.Stream

/-!
# Runs that mirror one another

Two runs in different states go the same way if the second does to the image of every state what the
first does to the state itself. This is so of whole runs if it is so of their parts.
-/

namespace ConsoleScript

variable {ε ε' τ τ' α β γ δ : Type}

/-- What a run gives, with its failure, its state and its value taken over. -/
def mirrored (onError : ε → ε') (onState : τ → τ') (g : α → β) :
    EStateM.Result ε τ α → EStateM.Result ε' τ' β
  | .ok a s => .ok (g a) (onState s)
  | .error e s => .error (onError e) (onState s)

/-- What `x` gives in a state, `x'` gives in the image of the state. -/
def Mirrors (onError : ε → ε') (onState : τ → τ') (g : α → β) (x : EStateM ε τ α)
    (x' : EStateM ε' τ' β) : Prop :=
  ∀ s, x' (onState s) = mirrored onError onState g (x s)

variable {onError : ε → ε'} {onState : τ → τ'} {g : α → β}

theorem mirrors_pure (a : α) : Mirrors onError onState g (pure a) (pure (g a)) :=
  fun _ => rfl

theorem mirrors_throw (e : ε) : Mirrors onError onState g (throw e) (throw (onError e)) :=
  fun _ => rfl

theorem mirrors_get : Mirrors onError onState onState get get :=
  fun _ => rfl

theorem mirrors_modify {u : τ → τ} {u' : τ' → τ'} (h : ∀ s, u' (onState s) = onState (u s)) :
    Mirrors onError onState id (modify u : EStateM ε τ PUnit) (modify u') := by
  intro s
  change EStateM.Result.ok PUnit.unit (u' (onState s)) = .ok PUnit.unit (onState (u s))
  rw [h]

theorem Mirrors.bind {h : γ → δ} {x : EStateM ε τ α} {x' : EStateM ε' τ' β}
    {k : α → EStateM ε τ γ} {k' : β → EStateM ε' τ' δ} (hx : Mirrors onError onState g x x')
    (hk : ∀ a, Mirrors onError onState h (k a) (k' (g a))) :
    Mirrors onError onState h (x >>= k) (x' >>= k') := by
  intro s
  have hxs := hx s
  cases hrun : x s with
  | ok a t =>
    rw [hrun] at hxs
    rw [bind_of_ok hrun, bind_of_ok hxs]
    exact hk a t
  | error e t =>
    rw [hrun] at hxs
    rw [bind_of_error hrun, bind_of_error hxs]
    rfl

theorem Mirrors.map {x : EStateM ε τ α} {x' : EStateM ε' τ' α}
    (hx : Mirrors onError onState id x x') (f : α → β) :
    Mirrors onError onState id (f <$> x) (f <$> x') := by
  simp only [map_eq_pure_bind]
  exact hx.bind fun a => mirrors_pure _

end ConsoleScript
