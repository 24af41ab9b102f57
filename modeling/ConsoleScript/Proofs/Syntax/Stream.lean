import ConsoleScript.Syntax.Window

/-!
# What a window sees

A window sees a list of tokens if its current token is the first and its source gives the others one
after another. Parts of a parser are followed backwards: from the tokens seen at the end of a run to
those seen at its start. That way nothing is asked of tokens that the parser does not come to.
-/

namespace ConsoleScript

variable {σ κ α β : Type}

theorem bind_ok {ε τ : Type} {x : EStateM ε τ α} {f : α → EStateM ε τ β} {s s' : τ} {b : β}
    (h : (x >>= f) s = .ok b s') : ∃ a s₁, x s = .ok a s₁ ∧ f a s₁ = .ok b s' := by
  change EStateM.bind x f s = _ at h
  unfold EStateM.bind at h
  split at h
  · rename_i a s₁ hx
    exact ⟨a, s₁, hx, h⟩
  · cases h

theorem bind_of_ok {ε τ : Type} {x : EStateM ε τ α} {f : α → EStateM ε τ β} {s s₁ : τ} {a : α}
    (h : x s = .ok a s₁) : (x >>= f) s = f a s₁ := by
  change EStateM.bind x f s = _
  simp only [EStateM.bind, h]

theorem bind_of_error {ε τ : Type} {x : EStateM ε τ α} {f : α → EStateM ε τ β} {s s₁ : τ} {e : ε}
    (h : x s = .error e s₁) : (x >>= f) s = .error e s₁ := by
  change EStateM.bind x f s = _
  simp only [EStateM.bind, h]

theorem bind_congr_of_ok {ε τ : Type} {x y : EStateM ε τ α} {f g : α → EStateM ε τ β} {s : τ}
    (hxy : x s = y s) (h : ∀ a t, y s = .ok a t → f a t = g a t) : (x >>= f) s = (y >>= g) s := by
  cases hy : y s with
  | ok a t => rw [bind_of_ok (hxy.trans hy), bind_of_ok hy, h a t hy]
  | error e t => rw [bind_of_error (hxy.trans hy), bind_of_error hy]

theorem get_bind {ε τ : Type} (f : τ → EStateM ε τ β) (s : τ) : (get >>= f) s = f s s := rfl

/-- The part that is chosen by a look at the state is named, so that the choice can be split. -/
theorem get_bind_ok {ε τ : Type} {f : τ → EStateM ε τ β} {s s' : τ} {b : β}
    (h : (get >>= f) s = .ok b s') : ∃ p, f s = p ∧ p s = .ok b s' :=
  ⟨f s, rfl, h⟩

namespace Parse

theorem isAt_bind [TokenKind κ] (kind : κ) (f : Bool → Parse σ κ β) (w : Window σ κ) :
    (isAt kind >>= f) w = f (w.isAt kind) w := rfl

theorem enter_ok {w w' : Window σ κ} {u : Unit} (h : enter w = .ok u w') :
    w' = { w with depth := w.depth + 1 } := by
  unfold enter at h
  split at h
  · cases h
    rfl
  · cases h

end Parse

variable [TokenSource σ κ]

inductive Delivers : σ → List (Token κ) → Prop where
  | nil (a : σ) : Delivers a []
  | cons {a b : σ} {t : Token κ} {ts : List (Token κ)} (h : TokenSource.next a = .ok t b)
      (more : Delivers b ts) : Delivers a (t :: ts)

namespace Window

def Sees (w : Window σ κ) (input : List (Token κ)) : Prop :=
  ∃ behind, input = w.current :: behind ∧ Delivers w.source behind

theorem sees_current (w : Window σ κ) : w.Sees [w.current] :=
  ⟨[], rfl, .nil w.source⟩

/-- A run from `w` to `w'` takes the tokens of `input` before `rest`. -/
structure Covers (w w' : Window σ κ) (input rest : List (Token κ)) : Prop where
  sees : w.Sees input
  took : ∃ taken, input = taken ++ rest ∧
    w'.previous = (taken.getLast?.map Token.kind).or w.previous

theorem Covers.refl {w w' : Window σ κ} {rest : List (Token κ)} (hsource : w'.source = w.source)
    (hcurrent : w'.current = w.current) (hprevious : w'.previous = w.previous)
    (hrest : w'.Sees rest) : w.Covers w' rest rest := by
  obtain ⟨behind, rfl, hbehind⟩ := hrest
  refine ⟨⟨behind, by rw [hcurrent], hsource ▸ hbehind⟩, [], rfl, ?_⟩
  rw [hprevious]
  rfl

theorem Covers.trans {w w₁ w' : Window σ κ} {input mid rest : List (Token κ)}
    (h : w.Covers w₁ input mid) (h' : w₁.Covers w' mid rest) : w.Covers w' input rest := by
  obtain ⟨hsees, taken, rfl, hprevious⟩ := h
  obtain ⟨_, taken', rfl, hprevious'⟩ := h'
  refine ⟨hsees, taken ++ taken', (List.append_assoc _ _ _).symm, ?_⟩
  rw [hprevious', hprevious, List.getLast?_append]
  cases taken'.getLast? <;> rfl

/-- If a run takes anything, then last a token of the kind that the window remembers. -/
theorem Covers.last {w w' : Window σ κ} {input rest : List (Token κ)} {kind : κ}
    (h : w.Covers w' input rest) (hlast : w'.previous = some kind) :
    input = rest ∨ ∃ taken t, input = taken ++ t :: rest ∧ t.kind = kind := by
  obtain ⟨_, taken, rfl, hprevious⟩ := h
  rcases List.eq_nil_or_concat taken with rfl | ⟨before, t, rfl⟩
  · exact .inl rfl
  · refine .inr ⟨before, t, by simp, ?_⟩
    rw [hlast, List.concat_eq_append, List.getLast?_concat] at hprevious
    exact (Option.some.inj hprevious).symm

structure StepsTo (w w' : Window σ κ) : Prop where
  next : TokenSource.next w.source = .ok w'.current w'.source
  previous : w'.previous = some w.current.kind

theorem StepsTo.covers {w w' : Window σ κ} {rest : List (Token κ)} (h : w.StepsTo w')
    (hrest : w'.Sees rest) : w.Covers w' (w.current :: rest) rest := by
  obtain ⟨behind, rfl, hbehind⟩ := hrest
  exact ⟨⟨_, rfl, .cons h.next hbehind⟩, [w.current], rfl, h.previous⟩

end Window

namespace Parse

/-- Whenever the part succeeds, what it takes and gives is related by the rule. -/
def Sound (p : Parse σ κ α) (rule : List (Token κ) → α → List (Token κ) → Prop) : Prop :=
  ∀ ⦃w : Window σ κ⦄ ⦃a : α⦄ ⦃w' : Window σ κ⦄, p w = .ok a w' →
    ∀ ⦃rest : List (Token κ)⦄, w'.Sees rest → ∃ input, w.Covers w' input rest ∧ rule input a rest

theorem advance_ok {w w' : Window σ κ} {t : Token κ} (h : advance w = .ok t w') :
    t = w.current ∧ w.StepsTo w' := by
  unfold advance at h
  split at h
  · rename_i next after hnext
    cases h
    exact ⟨rfl, hnext, rfl⟩
  · cases h

theorem consume_ok [TokenKind κ] {kind : κ} {w w' : Window σ κ} {t : Token κ}
    (h : consume kind w = .ok t w') : t = w.current ∧ w.current.kind = kind ∧ w.StepsTo w' := by
  unfold consume at h
  split at h
  · rename_i hat
    obtain ⟨rfl, hsteps⟩ := advance_ok h
    exact ⟨rfl, beq_iff_eq.mp hat, hsteps⟩
  · cases h

theorem advance_bind_ok {f : Token κ → Parse σ κ β} {w w' : Window σ κ} {b : β}
    (h : (advance >>= f) w = .ok b w') :
    ∃ w₁, w.StepsTo w₁ ∧ f w.current w₁ = .ok b w' := by
  obtain ⟨t, w₁, ht, h⟩ := bind_ok h
  obtain ⟨rfl, hsteps⟩ := advance_ok ht
  exact ⟨w₁, hsteps, h⟩

theorem consume_bind_ok [TokenKind κ] {kind : κ} {f : Token κ → Parse σ κ β} {w w' : Window σ κ}
    {b : β} (h : (consume kind >>= f) w = .ok b w') :
    ∃ w₁, w.current.kind = kind ∧ w.StepsTo w₁ ∧ f w.current w₁ = .ok b w' := by
  obtain ⟨t, w₁, ht, h⟩ := bind_ok h
  obtain ⟨rfl, hkind, hsteps⟩ := consume_ok ht
  exact ⟨w₁, hkind, hsteps, h⟩

theorem peek_ok {w w' : Window σ κ} {t : Token κ} (h : peek w = .ok t w') :
    w' = w ∧ ∃ after, TokenSource.next w.source = .ok t after := by
  unfold peek at h
  split at h
  · rename_i next after hnext
    cases h
    exact ⟨rfl, after, hnext⟩
  · cases h

/-- A part that is run one level down takes what it takes otherwise. -/
theorem Sound.nested {p : Parse σ κ α} {rule : List (Token κ) → α → List (Token κ) → Prop}
    (hp : Sound p rule) : Sound (nested p) rule := by
  intro w a w' h rest hrest
  unfold Parse.nested enter at h
  by_cases hdepth : w.depth < nestingLimit
  · rw [if_pos hdepth] at h
    cases hrun : p { w with depth := w.depth + 1 } with
    | ok b inner =>
      simp only [hrun] at h
      cases h
      have hinner : inner.Sees rest := hrest
      obtain ⟨input, hcovers, hrule⟩ := hp hrun hinner
      exact ⟨input, ⟨hcovers.sees, hcovers.took⟩, hrule⟩
    | error e inner =>
      simp only [hrun] at h
      cases h
  · rw [if_neg hdepth] at h
    cases h

/-- What holds of a last step, and of a step before a run of which it holds, holds of the run. -/
theorem iterate_ok [TokenKind κ] {step : α → Parse σ κ (α ⊕ β)}
    {P : α → Window σ κ → β → Window σ κ → Prop}
    (last : ∀ {a w b w'}, step a w = .ok (.inr b) w' → P a w b w')
    (again : ∀ {a w a' w₁ b w'}, step a w = .ok (.inl a') w₁ → P a' w₁ b w' → P a w b w')
    {a : α} {w : Window σ κ} {b : β} {w' : Window σ κ} (h : iterate step a w = .ok b w') :
    P a w b w' := by
  induction a, w using iterate.induct step with
  | case1 a w e after hstep =>
    rw [iterate, hstep] at h
    cases h
  | case2 a w b' after hstep =>
    rw [iterate, hstep] at h
    cases h
    exact last hstep
  | case3 a w a' after hstep htaken ih =>
    rw [iterate, hstep] at h
    simp only [htaken, ↓reduceDIte] at h
    exact again hstep (ih h)
  | case4 a w a' after hstep htaken =>
    rw [iterate, hstep] at h
    simp only [htaken, ↓reduceDIte] at h
    cases h

end Parse

end ConsoleScript
