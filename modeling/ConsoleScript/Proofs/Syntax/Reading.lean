import ConsoleScript.Proofs.Syntax.Stream

/-!
# Reading given tokens

Here a parser is followed forwards: from the tokens in front of a window to those it leaves. What a
part reads is stated for the levels of nesting it has left and for those it needs. With too few it
may refuse to go deeper, and there is no other way for it to fail.
-/

namespace ConsoleScript

variable {σ κ α β : Type}

variable [TokenKind κ] [TokenSource σ κ]

/-- The source gives these tokens one after another, and each brings it nearer to its end. It has at
least one more to give after them. -/
inductive Streams : σ → List (Token κ) → Prop where
  | nil {a b : σ} {t : Token κ} (next : TokenSource.next a = .ok t b) : Streams a []
  | cons {a b : σ} {t : Token κ} {ts : List (Token κ)} (next : TokenSource.next a = .ok t b)
      (nearer : TokenSource.remaining b + (if t.isEnd then 0 else 1) ≤ TokenSource.remaining a)
      (more : Streams b ts) : Streams a (t :: ts)

theorem Streams.delivers {a : σ} {ts : List (Token κ)} (h : Streams a ts) : Delivers a ts := by
  induction h with
  | nil _ => exact .nil _
  | cons next _ _ ih => exact .cons next ih

namespace Window

/-- The tokens are in front of the window, the first of them being the current one. -/
def Faces (w : Window σ κ) (input : List (Token κ)) : Prop :=
  ∃ behind, input = w.current :: behind ∧ Streams w.source behind

theorem Faces.current {w : Window σ κ} {t : Token κ} {rest : List (Token κ)}
    (h : w.Faces (t :: rest)) : w.current = t := by
  obtain ⟨behind, heq, _⟩ := h
  cases heq
  rfl

/-- A run takes the tokens of `input` before `rest` and ends on the level it started on. -/
structure ReadsTo (w w' : Window σ κ) (input rest : List (Token κ)) : Prop where
  faces : w'.Faces rest
  depth : w'.depth = w.depth
  took : ∃ taken, input = taken ++ rest ∧
    w'.previous = (taken.getLast?.map Token.kind).or w.previous ∧
    w'.remaining + taken.length ≤ w.remaining

theorem ReadsTo.refl {w : Window σ κ} {input : List (Token κ)} (h : w.Faces input) :
    w.ReadsTo w input input :=
  ⟨h, rfl, [], rfl, rfl, Nat.le_refl _⟩

theorem ReadsTo.trans {w w₁ w' : Window σ κ} {input mid rest : List (Token κ)}
    (h : w.ReadsTo w₁ input mid) (h' : w₁.ReadsTo w' mid rest) : w.ReadsTo w' input rest := by
  obtain ⟨_, hdepth, taken, rfl, hprevious, hremaining⟩ := h
  obtain ⟨hfaces, hdepth', taken', rfl, hprevious', hremaining'⟩ := h'
  refine ⟨hfaces, hdepth'.trans hdepth, taken ++ taken', by simp, ?_, ?_⟩
  · rw [hprevious', hprevious, List.getLast?_append]
    cases taken'.getLast? <;> rfl
  · rw [List.length_append]
    omega

theorem ReadsTo.remaining_lt {w w' : Window σ κ} {input rest : List (Token κ)}
    (h : w.ReadsTo w' input rest) (hlt : rest.length < input.length) :
    w'.remaining < w.remaining := by
  obtain ⟨_, _, taken, rfl, _, hremaining⟩ := h
  rw [List.length_append] at hlt
  omega

/-- The window remembers the last of the tokens that were taken. -/
theorem ReadsTo.previous_eq {w w' : Window σ κ} {taken rest : List (Token κ)} {t : Token κ}
    (h : w.ReadsTo w' (taken ++ t :: rest) rest) : w'.previous = some t.kind := by
  obtain ⟨_, _, taken', heq, hprevious, _⟩ := h
  have heq' : taken' ++ rest = (taken ++ [t]) ++ rest := by simp [← heq]
  have htaken : taken' = taken ++ [t] := List.append_cancel_right heq'
  rw [hprevious, htaken, List.getLast?_concat]
  rfl

end Window

namespace Parse

/-- With `l` levels left the part takes the tokens of `input` before `rest` and gives `a`. If it
needs `k` levels and `l` is less, it may instead refuse to go deeper. -/
def Reads (p : Parse σ κ α) (l k : Nat) (input : List (Token κ)) (a : α)
    (rest : List (Token κ)) : Prop :=
  ∀ ⦃w : Window σ κ⦄, w.Faces input → w.depth + l ≤ nestingLimit →
    (∃ w', p w = .ok a w' ∧ w.ReadsTo w' input rest) ∨
      (l < k ∧ ∃ line w', p w = .error (.nestingTooDeep nestingLimit line) w')

theorem reads_pure {l k : Nat} (a : α) (input : List (Token κ)) :
    Reads (pure a : Parse σ κ α) l k input a input :=
  fun w hw _ => .inl ⟨w, rfl, .refl hw⟩

theorem reads_tooDeep {k : Nat} (hk : 0 < k) (a : α) (input rest : List (Token κ)) :
    Reads (tooDeep : Parse σ κ α) 0 k input a rest :=
  fun w _ _ => .inr ⟨hk, w.line, w, rfl⟩

theorem Reads.bind {p : Parse σ κ α} {f : α → Parse σ κ β} {l k : Nat} {a : α} {b : β}
    {input mid rest : List (Token κ)} (hp : Reads p l k input a mid)
    (hf : Reads (f a) l k mid b rest) : Reads (p >>= f) l k input b rest := by
  intro w hw hdepth
  rcases hp hw hdepth with ⟨w₁, hok, hreadsTo⟩ | ⟨hlt, line, w₁, herror⟩
  · rw [bind_of_ok hok]
    have hdepth' : w₁.depth + l ≤ nestingLimit := by
      rw [hreadsTo.depth]
      exact hdepth
    rcases hf hreadsTo.faces hdepth' with ⟨w', hok', hreadsTo'⟩ | ⟨hlt, line, w', herror⟩
    · exact .inl ⟨w', hok', hreadsTo.trans hreadsTo'⟩
    · exact .inr ⟨hlt, line, w', herror⟩
  · rw [bind_of_error herror]
    exact .inr ⟨hlt, line, w₁, rfl⟩

theorem reads_get {f : Window σ κ → Parse σ κ α} {l k : Nat} {t : Token κ} {a : α}
    {input rest : List (Token κ)}
    (h : ∀ w : Window σ κ, w.current = t → Reads (f w) l k (t :: input) a rest) :
    Reads (get >>= f) l k (t :: input) a rest :=
  fun w hw hdepth => h w hw.current hw hdepth

theorem reads_isAt {kind : κ} {f : Bool → Parse σ κ α} {l k : Nat} {t : Token κ} {a : α}
    {input rest : List (Token κ)} (h : Reads (f (t.kind == kind)) l k (t :: input) a rest) :
    Reads (isAt kind >>= f) l k (t :: input) a rest := by
  intro w hw hdepth
  rw [isAt_bind, Window.isAt, hw.current]
  exact h hw hdepth

theorem reads_advance {l k : Nat} {t : Token κ} {rest : List (Token κ)} (ht : t.isEnd = false)
    (hrest : rest ≠ []) : Reads (advance : Parse σ κ (Token κ)) l k (t :: rest) t rest := by
  intro w hw _
  obtain ⟨behind, heq, hstreams⟩ := hw
  cases heq
  cases hstreams with
  | nil => exact absurd rfl hrest
  | @cons _ after u _ hnext hnearer hmore =>
    refine .inl ⟨⟨after, u, some w.current.kind, w.depth⟩, ?_, ⟨_, rfl, hmore⟩, rfl,
      [w.current], rfl, rfl, ?_⟩
    · rw [advance, hnext]
    · simp only [Window.remaining, ht, List.length_singleton, Bool.false_eq_true, ↓reduceIte]
      omega

theorem reads_consume {kind : κ} {l k : Nat} {t : Token κ} {rest : List (Token κ)}
    (hkind : t.kind = kind) (hend : t.isEnd = false) (hrest : rest ≠ []) :
    Reads (consume kind : Parse σ κ (Token κ)) l k (t :: rest) t rest := by
  intro w hw hdepth
  have hat : w.isAt kind = true := by
    rw [Window.isAt, hw.current, hkind]
    exact beq_self_eq_true kind
  rw [consume, if_pos hat]
  exact reads_advance hend hrest hw hdepth

theorem reads_peek {f : Token κ → Parse σ κ α} {l k : Nat} {t u : Token κ} {a : α}
    {input rest : List (Token κ)} (h : Reads (f u) l k (t :: u :: input) a rest) :
    Reads (peek >>= f) l k (t :: u :: input) a rest := by
  intro w hw hdepth
  obtain ⟨behind, heq, hstreams⟩ := hw
  cases heq
  cases hstreams with
  | cons hnext hnearer hmore =>
    have hpeek : peek w = .ok u w := by rw [peek, hnext]
    rw [bind_of_ok hpeek]
    exact h ⟨_, rfl, .cons hnext hnearer hmore⟩ hdepth

theorem Reads.enter {p : Parse σ κ α} {l k : Nat} {a : α} {input rest : List (Token κ)}
    (hp : Reads p l k input a rest) {w : Window σ κ} (hw : w.Faces input)
    (hdepth : w.depth + (l + 1) ≤ nestingLimit) :
    Parse.enter w = .ok () { w with depth := w.depth + 1 } ∧
      ((∃ inner, p { w with depth := w.depth + 1 } = .ok a inner ∧
          w.ReadsTo (inner.leave 1) input rest) ∨
        (l < k ∧ ∃ line inner, p { w with depth := w.depth + 1 } =
          .error (.nestingTooDeep nestingLimit line) inner)) := by
  refine ⟨by rw [Parse.enter, if_pos (by omega)], ?_⟩
  have hdepth' : ({ w with depth := w.depth + 1 } : Window σ κ).depth + l ≤ nestingLimit := by
    simp only
    omega
  rcases hp (w := { w with depth := w.depth + 1 }) hw hdepth' with ⟨inner, hok, hreadsTo⟩ | herror
  · refine .inl ⟨inner, hok, hreadsTo.faces, ?_, hreadsTo.took⟩
    rw [Window.leave, hreadsTo.depth, Nat.add_sub_cancel]
  · exact .inr herror

theorem Reads.nested {p : Parse σ κ α} {l k : Nat} {a : α} {input rest : List (Token κ)}
    (hp : Reads p l k input a rest) : Reads (nested p) (l + 1) (k + 1) input a rest := by
  intro w hw hdepth
  obtain ⟨henter, hrun⟩ := hp.enter hw hdepth
  rcases hrun with ⟨inner, hok, hreadsTo⟩ | ⟨hlt, line, inner, herror⟩
  · refine .inl ⟨inner.leave 1, ?_, hreadsTo⟩
    simp only [Parse.nested, henter, hok]
  · refine .inr ⟨Nat.succ_lt_succ hlt, line, inner.leave 1, ?_⟩
    simp only [Parse.nested, henter, herror]

/-- A part that goes down itself and comes up when it has succeeded. -/
theorem Reads.between {p : Parse σ κ α} {l k : Nat} {a : α} {input rest : List (Token κ)}
    (hp : Reads p l k input a rest) :
    Reads (do Parse.enter; let b ← p; Parse.leave 1; return b) (l + 1) (k + 1) input a rest := by
  intro w hw hdepth
  obtain ⟨henter, hrun⟩ := hp.enter hw hdepth
  rw [bind_of_ok henter]
  rcases hrun with ⟨inner, hok, hreadsTo⟩ | ⟨hlt, line, inner, herror⟩
  · rw [bind_of_ok hok]
    exact .inl ⟨inner.leave 1, rfl, hreadsTo⟩
  · rw [bind_of_error herror]
    exact .inr ⟨Nat.succ_lt_succ hlt, line, inner, rfl⟩

theorem Reads.last {step : α → Parse σ κ (α ⊕ β)} {l k : Nat} {a : α} {b : β}
    {input rest : List (Token κ)} (h : Reads (step a) l k input (.inr b) rest) :
    Reads (iterate step a) l k input b rest := by
  intro w hw hdepth
  rcases h hw hdepth with ⟨w', hok, hreadsTo⟩ | ⟨hlt, line, w', herror⟩
  · refine .inl ⟨w', ?_, hreadsTo⟩
    rw [iterate, hok]
  · refine .inr ⟨hlt, line, w', ?_⟩
    rw [iterate, herror]

theorem Reads.again {step : α → Parse σ κ (α ⊕ β)} {l k : Nat} {a a' : α} {b : β}
    {input mid rest : List (Token κ)} (h : Reads (step a) l k input (.inl a') mid)
    (hlt : mid.length < input.length) (h' : Reads (iterate step a') l k mid b rest) :
    Reads (iterate step a) l k input b rest := by
  intro w hw hdepth
  rcases h hw hdepth with ⟨w₁, hok, hreadsTo⟩ | ⟨hlt, line, w₁, herror⟩
  · have hstep : iterate step a w = iterate step a' w₁ := by
      rw [iterate, hok]
      simp only [hreadsTo.remaining_lt hlt, ↓reduceDIte]
    have hdepth' : w₁.depth + l ≤ nestingLimit := by
      rw [hreadsTo.depth]
      exact hdepth
    rw [hstep]
    rcases h' hreadsTo.faces hdepth' with ⟨w', hok', hreadsTo'⟩ | herror
    · exact .inl ⟨w', hok', hreadsTo.trans hreadsTo'⟩
    · exact .inr herror
  · refine .inr ⟨hlt, line, w₁, ?_⟩
    rw [iterate, herror]

end Parse

end ConsoleScript
