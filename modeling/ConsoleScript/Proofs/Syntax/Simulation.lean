import ConsoleScript.Proofs.Syntax.Loops

/-!
# Sources that cannot be told apart

The grammar asks a source for nothing but the next token, so it goes the same way over two sources
that give the same tokens and the same failures. The loops of the parser also compare how much is
left of a source before and after a round. Two sources may measure this in different ways; it is
enough that a round takes something of the one just if it takes something of the other.
-/

namespace ConsoleScript

variable {σ σ' κ α β : Type} [TokenKind κ] [TokenSource σ κ] [TokenSource σ' κ]

/-- What is left of the source behind this token. Behind the end of the text that is nothing. -/
structure Nears (a : σ) (t : Token κ) (b : σ) : Prop where
  nearer : TokenSource.remaining b + (if t.isEnd then 0 else 1) ≤ TokenSource.remaining a
  ended : t.isEnd → TokenSource.remaining b = 0

/-- Two sources give the same token and are related behind it, or they fail alike. -/
inductive NextAlike (R : σ → σ' → Prop) (Fails : LexError → Prop) (a : σ) (a' : σ') : Prop where
  | token {t : Token κ} {b : σ} {b' : σ'} (next : TokenSource.next a = .ok t b)
      (next' : TokenSource.next a' = .ok t b') (related : R b b') (nears : Nears a t b)
      (nears' : Nears a' t b')
  | failure {e : LexError} {b : σ} {b' : σ'} (next : TokenSource.next a = .error e b)
      (next' : TokenSource.next a' = .error e b') (fails : Fails e)

/-- Related sources go on giving the same, and every failure is one of those that `Fails` names. -/
def Interchangeable (R : σ → σ' → Prop) (Fails : LexError → Prop) : Prop :=
  ∀ ⦃a : σ⦄ ⦃a' : σ'⦄, R a a' → NextAlike R Fails a a'

namespace Window

structure Matches (R : σ → σ' → Prop) (w : Window σ κ) (w' : Window σ' κ) : Prop where
  source : R w.source w'.source
  current : w'.current = w.current
  previous : w'.previous = w.previous
  depth : w'.depth = w.depth
  ended : w.current.isEnd →
    TokenSource.remaining w.source = 0 ∧ TokenSource.remaining w'.source = 0

/-- On both ways something was taken, or on neither. -/
def InStep (w v : Window σ κ) (w' v' : Window σ' κ) : Prop :=
  v.remaining < w.remaining ∧ v'.remaining < w'.remaining ∨
    v.remaining = w.remaining ∧ v'.remaining = w'.remaining

theorem InStep.refl (w : Window σ κ) (w' : Window σ' κ) : InStep w w w' w' :=
  .inr ⟨rfl, rfl⟩

theorem InStep.trans {w v u : Window σ κ} {w' v' u' : Window σ' κ} (h : InStep w v w' v')
    (h' : InStep v u v' u') : InStep w u w' u' := by
  unfold InStep at *
  omega

theorem InStep.remaining_lt_iff {w v : Window σ κ} {w' v' : Window σ' κ}
    (h : InStep w v w' v') : v.remaining < w.remaining ↔ v'.remaining < w'.remaining := by
  unfold InStep at h
  omega

variable {R : σ → σ' → Prop} {w : Window σ κ} {w' : Window σ' κ}

theorem Matches.line (h : w.Matches R w') : w'.line = w.line :=
  congrArg Token.line h.current

theorem Matches.isAt (h : w.Matches R w') (kind : κ) : w'.isAt kind = w.isAt kind := by
  rw [Window.isAt, h.current, Window.isAt]

theorem Matches.unexpected (h : w.Matches R w') : w'.unexpected = w.unexpected := by
  rw [Window.unexpected, h.current, h.line, Window.unexpected]

theorem Matches.withDepth (h : w.Matches R w') (depth : Nat) :
    Matches R { w with depth } { w' with depth } :=
  ⟨h.source, h.current, h.previous, rfl, h.ended⟩

theorem Matches.leave (h : w.Matches R w') (levels : Nat) :
    (w.leave levels).Matches R (w'.leave levels) := by
  rw [Window.leave, Window.leave, h.depth]
  exact h.withDepth _

theorem Matches.pass {t : Token κ} {b : σ} {b' : σ'} (h : w.Matches R w') (hb : R b b')
    (hnears : Nears w.source t b) (hnears' : Nears w'.source t b') :
    let v : Window σ κ := ⟨b, t, some w.current.kind, w.depth⟩
    let v' : Window σ' κ := ⟨b', t, some w'.current.kind, w'.depth⟩
    v.Matches R v' ∧ InStep w v w' v' := by
  obtain ⟨hnearer, hended⟩ := hnears
  obtain ⟨hnearer', hended'⟩ := hnears'
  constructor
  · exact ⟨hb, rfl, by rw [h.current], h.depth, fun ht => ⟨hended ht, hended' ht⟩⟩
  · simp only [InStep, remaining, h.current]
    -- At the end of the text nothing is left to be taken; before it a token always is.
    by_cases hcurrent : w.current.isEnd
    · obtain ⟨hnone, hnone'⟩ := h.ended hcurrent
      simp only [hcurrent, ↓reduceIte]
      omega
    · simp only [hcurrent, Bool.false_eq_true, ↓reduceIte]
      omega

end Window

open Window

inductive Agrees (R : σ → σ' → Prop) (Fails : LexError → Prop) (w : Window σ κ)
    (w' : Window σ' κ) : EStateM.Result ParseError (Window σ κ) α →
      EStateM.Result ParseError (Window σ' κ) α → Prop where
  | ok {a : α} {v : Window σ κ} {v' : Window σ' κ} (matched : v.Matches R v')
      (inStep : InStep w v w' v') : Agrees R Fails w w' (.ok a v) (.ok a v')
  | error {e : ParseError} {v : Window σ κ} {v' : Window σ' κ}
      (fails : ∀ f, e = .lexing f → Fails f) : Agrees R Fails w w' (.error e v) (.error e v')

theorem Agrees.prepend {R : σ → σ' → Prop} {Fails : LexError → Prop} {w v : Window σ κ}
    {w' v' : Window σ' κ} {r : EStateM.Result ParseError (Window σ κ) α}
    {r' : EStateM.Result ParseError (Window σ' κ) α} (h : Agrees R Fails v v' r r')
    (hstep : InStep w v w' v') : Agrees R Fails w w' r r' := by
  cases h with
  | ok hu hstep' => exact .ok hu (hstep.trans hstep')
  | error fails => exact .error fails

namespace Parse

/-- From windows that match, the two parts give the same and come to windows that match, or they
fail alike. -/
def Simulates (R : σ → σ' → Prop) (Fails : LexError → Prop) (p : Parse σ κ α)
    (p' : Parse σ' κ α) : Prop :=
  ∀ ⦃w : Window σ κ⦄ ⦃w' : Window σ' κ⦄, w.Matches R w' → Agrees R Fails w w' (p w) (p' w')

variable {R : σ → σ' → Prop} {Fails : LexError → Prop}

theorem simulates_pure (a : α) :
    Simulates R Fails (pure a : Parse σ κ α) (pure a : Parse σ' κ α) :=
  fun w w' h => .ok h (.refl w w')

theorem simulates_throw {e : ParseError} (he : ∀ f, e ≠ .lexing f) :
    Simulates R Fails (throw e : Parse σ κ α) (throw e : Parse σ' κ α) :=
  fun _ _ _ => .error fun f hf => absurd hf (he f)

theorem Simulates.bind {p : Parse σ κ α} {p' : Parse σ' κ α} {f : α → Parse σ κ β}
    {f' : α → Parse σ' κ β} (hp : Simulates R Fails p p')
    (hf : ∀ a, Simulates R Fails (f a) (f' a)) : Simulates R Fails (p >>= f) (p' >>= f') := by
  intro w w' hw
  have hagrees := hp hw
  generalize hrun : p w = r at hagrees
  generalize hrun' : p' w' = r' at hagrees
  cases hagrees with
  | @ok a v v' hv hstep =>
    rw [bind_of_ok hrun, bind_of_ok hrun']
    exact (hf a hv).prepend hstep
  | error fails =>
    rw [bind_of_error hrun, bind_of_error hrun']
    exact .error fails

theorem simulates_get {f : Window σ κ → Parse σ κ α} {f' : Window σ' κ → Parse σ' κ α}
    (h : ∀ w w', w.Matches R w' → Simulates R Fails (f w) (f' w')) :
    Simulates R Fails (get >>= f) (get >>= f') :=
  fun w w' hw => h w w' hw hw

theorem simulates_isAt {kind : κ} {f : Bool → Parse σ κ α} {f' : Bool → Parse σ' κ α}
    (h : ∀ b, Simulates R Fails (f b) (f' b)) :
    Simulates R Fails (isAt kind >>= f) (isAt kind >>= f') := by
  intro w w' hw
  rw [isAt_bind, isAt_bind, hw.isAt]
  exact h _ hw

theorem Simulates.ite {p q : Parse σ κ α} {p' q' : Parse σ' κ α} {c : Prop} [Decidable c]
    (hp : Simulates R Fails p p') (hq : Simulates R Fails q q') :
    Simulates R Fails (if c then p else q) (if c then p' else q') := by
  split
  · exact hp
  · exact hq

theorem simulates_unexpected :
    Simulates R Fails (unexpected : Parse σ κ α) (unexpected : Parse σ' κ α) := by
  intro w w' hw
  rw [unexpected, unexpected, hw.unexpected]
  refine .error ?_
  rintro f ⟨⟩

theorem simulates_tooDeep :
    Simulates R Fails (tooDeep : Parse σ κ α) (tooDeep : Parse σ' κ α) := by
  intro w w' hw
  rw [tooDeep, tooDeep, hw.line]
  refine .error ?_
  rintro f ⟨⟩

theorem simulates_advance (hR : Interchangeable R Fails) :
    Simulates R Fails (advance : Parse σ κ (Token κ)) (advance : Parse σ' κ (Token κ)) := by
  intro w w' hw
  cases hR hw.source with
  | token next next' related nears nears' =>
    obtain ⟨hmatches, hstep⟩ := hw.pass related nears nears'
    simp only [advance, next, next', hw.current] at hmatches hstep ⊢
    exact .ok hmatches hstep
  | failure next next' fails =>
    simp only [advance, next, next']
    refine .error ?_
    rintro f ⟨⟩
    exact fails

theorem simulates_consume (hR : Interchangeable R Fails) (kind : κ) :
    Simulates R Fails (consume kind : Parse σ κ (Token κ)) (consume kind) := by
  intro w w' hw
  simp only [consume, hw.isAt, hw.line, hw.current]
  split
  · exact simulates_advance hR hw
  · refine .error ?_
    rintro f ⟨⟩

theorem simulates_peek (hR : Interchangeable R Fails) :
    Simulates R Fails (peek : Parse σ κ (Token κ)) (peek : Parse σ' κ (Token κ)) := by
  intro w w' hw
  cases hR hw.source with
  | token next next' _ _ _ =>
    simp only [peek, next, next']
    exact .ok hw (.refl w w')
  | failure next next' fails =>
    simp only [peek, next, next']
    refine .error ?_
    rintro f ⟨⟩
    exact fails

theorem simulates_enter : Simulates R Fails (enter : Parse σ κ Unit) (enter : Parse σ' κ Unit) := by
  intro w w' hw
  simp only [enter, hw.depth]
  split
  · exact .ok (hw.withDepth _) (.refl w w')
  · exact simulates_tooDeep hw

theorem simulates_leave (levels : Nat) :
    Simulates R Fails (leave levels : Parse σ κ Unit) (leave levels : Parse σ' κ Unit) :=
  fun w w' hw => .ok (hw.leave levels) (.refl w w')

theorem Simulates.nested {p : Parse σ κ α} {p' : Parse σ' κ α} (hp : Simulates R Fails p p') :
    Simulates R Fails (nested p) (nested p') := by
  intro w w' hw
  by_cases hdepth : w.depth < nestingLimit
  · have hagrees := hp (hw.withDepth (w.depth + 1))
    simp only [Parse.nested, enter, hw.depth, hdepth, ↓reduceIte]
    generalize p { w with depth := w.depth + 1 } = r at hagrees ⊢
    generalize p' { w' with depth := w.depth + 1 } = r' at hagrees ⊢
    cases hagrees with
    | ok hv hstep => exact .ok (hv.leave 1) hstep
    | error fails => exact .error fails
  · simp only [Parse.nested, enter, hw.depth, hdepth, ↓reduceIte, tooDeep, hw.line]
    refine .error ?_
    rintro f ⟨⟩

theorem Simulates.iterate {step : α → Parse σ κ (α ⊕ β)} {step' : α → Parse σ' κ (α ⊕ β)}
    (hstep : ∀ a, Simulates R Fails (step a) (step' a)) (a : α) :
    Simulates R Fails (iterate step a) (iterate step' a) := by
  intro w w' hw
  induction hleft : w.remaining using Nat.strongRecOn generalizing a w w' with
  | ind n ih =>
    have hagrees := hstep a hw
    generalize hrun : step a w = r at hagrees
    generalize hrun' : step' a w' = r' at hagrees
    rw [Parse.iterate, hrun, Parse.iterate, hrun']
    cases hagrees with
    | error fails => exact .error fails
    | @ok result v v' hv hround =>
      cases result with
      | inr b => exact .ok hv hround
      | inl a₁ =>
        by_cases htaken : v.remaining < w.remaining
        · have htaken' := hround.remaining_lt_iff.mp htaken
          simp only [htaken, htaken', ↓reduceDIte]
          exact (ih _ (hleft ▸ htaken) a₁ hv rfl).prepend hround
        · have htaken' := mt hround.remaining_lt_iff.mpr htaken
          simp only [htaken, htaken', ↓reduceDIte]
          exact (simulates_unexpected hv).prepend hround

end Parse

/-! ### The grammar -/

namespace Grammar

open Parse ConsoleScript.Derivation

variable {σ σ' α : Type} [TokenSource σ Kind] [TokenSource σ' Kind] {R : σ → σ' → Prop}
  {Fails : LexError → Prop}

section Parts

variable (hR : Interchangeable R Fails)

include hR

theorem simulates_identifier :
    Simulates R Fails (identifier : Parse σ Kind String) (identifier : Parse σ' Kind String) := by
  apply (simulates_consume hR .identifier).bind
  intro t
  cases t.value with
  | none => exact simulates_throw (by rintro f ⟨⟩)
  | some value =>
    cases value with
    | text name => exact simulates_pure name
    | _ => exact simulates_throw (by rintro f ⟨⟩)

theorem simulates_take {a : α} :
    Simulates R Fails (do let _ ← advance; return a : Parse σ Kind α)
      (do let _ ← advance; return a : Parse σ' Kind α) :=
  (simulates_advance hR).bind fun _ => simulates_pure a

theorem simulates_commaSeparated {item : Parse σ Kind α} {item' : Parse σ' Kind α}
    (hitem : Simulates R Fails item item') (closing : Kind) :
    Simulates R Fails (commaSeparated item closing) (commaSeparated item' closing) := by
  have hstep (items : List α) :
      Simulates R Fails (commaStep item closing items) (commaStep item' closing items) := by
    apply hitem.bind
    intro a
    apply simulates_isAt
    intro separated
    apply Simulates.ite (simulates_take hR)
    apply simulates_isAt
    intro closed
    exact .ite (simulates_take hR) simulates_unexpected
  rw [commaSeparated_eq, commaSeparated_eq]
  apply simulates_isAt
  intro closed
  exact .ite (simulates_take hR) (.iterate hstep [])

theorem simulates_call {expr : Parse σ Kind Node} {expr' : Parse σ' Kind Node}
    (hexpr : Simulates R Fails expr expr') (name : String) (line : Nat) :
    Simulates R Fails (call expr name line) (call expr' name line) := by
  apply (simulates_consume hR .leftParen).bind
  intro _
  exact (simulates_commaSeparated hR hexpr .rightParen).bind fun args => simulates_pure _

theorem simulates_primary {expr : Parse σ Kind Node} {expr' : Parse σ' Kind Node}
    (hexpr : Simulates R Fails expr expr') :
    Simulates R Fails (primary expr) (primary expr') := by
  apply simulates_get
  intro w w' hw
  rw [hw.current]
  generalize w.current = t
  dsimp only
  split
  · apply (simulates_peek hR).bind
    intro follower
    apply (simulates_identifier hR).bind
    intro name
    exact .ite (simulates_call hR hexpr name t.line) (simulates_pure _)
  · apply (simulates_advance hR).bind
    intro _
    apply hexpr.bind
    intro inner
    exact (simulates_consume hR .rightParen).bind fun _ => simulates_pure _
  · cases literal? t with
    | none => exact simulates_unexpected
    | some value => exact simulates_take hR

theorem simulates_names :
    Simulates R Fails (names : Parse σ Kind (List String)) (names : Parse σ' Kind _) := by
  have hstep (done : List String) :
      Simulates R Fails (namesStep done : Parse σ Kind _) (namesStep done : Parse σ' Kind _) := by
    apply (simulates_identifier hR).bind
    intro name
    apply simulates_isAt
    intro separated
    exact .ite (simulates_take hR) (simulates_pure _)
  rw [names_eq, names_eq]
  exact .iterate hstep []

theorem simulates_declaration {expr : Parse σ Kind Node} {expr' : Parse σ' Kind Node}
    (hexpr : Simulates R Fails expr expr') (declared : DeclaredType) (line : Nat) :
    Simulates R Fails (declaration expr declared line) (declaration expr' declared line) := by
  apply (simulates_names hR).bind
  intro names
  apply simulates_isAt
  intro assigned
  apply Simulates.ite
  · apply (simulates_advance hR).bind
    intro _
    exact hexpr.bind fun value => simulates_pure _
  · exact .ite (simulates_throw (by rintro f ⟨⟩)) (simulates_pure _)

theorem simulates_identifierLed {expr : Parse σ Kind Node} {expr' : Parse σ' Kind Node}
    (hexpr : Simulates R Fails expr expr') :
    Simulates R Fails (identifierLed expr) (identifierLed expr') := by
  apply simulates_get
  intro w w' hw
  rw [hw.line]
  apply (simulates_identifier hR).bind
  intro name
  apply simulates_get
  intro v v' hv
  rw [hv.current]
  split
  · exact simulates_call hR hexpr name w.line
  · apply (simulates_advance hR).bind
    intro _
    exact hexpr.bind fun value => simulates_pure _
  · exact simulates_declaration hR hexpr (.named name) w.line
  · exact simulates_pure _

theorem simulates_parameter :
    Simulates R Fails (parameter : Parse σ Kind Parameter) (parameter : Parse σ' Kind _) := by
  apply (simulates_identifier hR).bind
  intro typeName
  exact (simulates_identifier hR).bind fun name => simulates_pure _

theorem simulates_statements {stmt : Parse σ Kind Node} {stmt' : Parse σ' Kind Node}
    (hstmt : Simulates R Fails stmt stmt') (closing : Kind) :
    Simulates R Fails (statements stmt closing) (statements stmt' closing) := by
  have hstep (done : List Node) :
      Simulates R Fails (statementsStep stmt closing done) (statementsStep stmt' closing done) := by
    apply simulates_isAt
    intro separated
    apply Simulates.ite (simulates_take hR)
    apply simulates_isAt
    intro closed
    apply Simulates.ite (simulates_pure _)
    apply hstmt.bind
    intro node
    apply simulates_get
    intro w w' hw
    rw [hw.isAt, hw.isAt, hw.previous]
    exact .ite (simulates_pure _) simulates_unexpected
  rw [statements_eq, statements_eq]
  exact .iterate hstep []

theorem simulates_block {stmt : Parse σ Kind Node} {stmt' : Parse σ' Kind Node}
    (hstmt : Simulates R Fails stmt stmt') :
    Simulates R Fails (block stmt) (block stmt') := by
  apply simulates_get
  intro w w' hw
  rw [hw.line]
  apply (simulates_consume hR .leftBrace).bind
  intro _
  apply (simulates_statements hR hstmt .rightBrace).bind
  intro nodes
  exact (simulates_consume hR .rightBrace).bind fun _ => simulates_pure _

theorem simulates_functionBody {expr stmt : Parse σ Kind Node} {expr' stmt' : Parse σ' Kind Node}
    (hexpr : Simulates R Fails expr expr') (hstmt : Simulates R Fails stmt stmt')
    (returnType : String) :
    Simulates R Fails (functionBody expr stmt returnType)
      (functionBody expr' stmt' returnType) := by
  apply simulates_get
  intro w w' hw
  rw [hw.isAt, hw.isAt, hw.line]
  apply Simulates.ite (simulates_block hR hstmt)
  apply Simulates.ite
  · exact hexpr.bind fun value => simulates_pure _
  · exact hstmt.bind fun node => simulates_pure _

theorem simulates_function {expr stmt : Parse σ Kind Node} {expr' stmt' : Parse σ' Kind Node}
    (hexpr : Simulates R Fails expr expr') (hstmt : Simulates R Fails stmt stmt') :
    Simulates R Fails (function expr stmt) (function expr' stmt') := by
  apply simulates_get
  intro w w' hw
  rw [hw.line]
  apply (simulates_consume hR .func).bind
  intro _
  apply (simulates_identifier hR).bind
  intro returnType
  apply (simulates_identifier hR).bind
  intro name
  apply (simulates_consume hR .leftParen).bind
  intro _
  apply (simulates_commaSeparated hR (simulates_parameter hR) .rightParen).bind
  intro params
  exact (simulates_functionBody hR hexpr hstmt returnType).bind fun body => simulates_pure _

end Parts

/-! ### The rules that call each other -/

/-- The rules for expressions, with `l` levels left. -/
structure ExpressionsSimulate (R : σ → σ' → Prop) (Fails : LexError → Prop) (l : Nat) : Prop where
  expression : Simulates R Fails (expression l : Parse σ Kind Node) (expression l)
  chain (tier : Tier) : Simulates R Fails (chain tier l : Parse σ Kind Node) (chain tier l)
  operand (tier : Tier) : Simulates R Fails (operand tier l : Parse σ Kind Node) (operand tier l)
  fold (tier : Tier) (left : Node) :
    Simulates R Fails (fold tier l left : Parse σ Kind Node) (fold tier l left)
  unary : Simulates R Fails (unary l : Parse σ Kind Node) (unary l)

section Levels

variable {l : Nat} (hR : Interchangeable R Fails)

include hR

theorem simulates_fold (hl : ∀ m, l = m + 1 → ExpressionsSimulate R Fails m) (tier : Tier)
    (left : Node) : Simulates R Fails (fold tier l left : Parse σ Kind Node) (fold tier l left) := by
  rw [fold, fold]
  apply simulates_get
  intro w w' hw
  rw [hw.current]
  dsimp only
  cases tier.operator? w.current.kind with
  | none => exact simulates_pure left
  | some op =>
    cases l with
    | zero => exact simulates_tooDeep
    | succ l =>
      have hlower := hl l rfl
      apply simulates_enter.bind
      intro _
      apply (simulates_advance hR).bind
      intro _
      apply (hlower.operand tier).bind
      intro right
      apply (hlower.fold tier _).bind
      intro result
      exact (simulates_leave 1).bind fun _ => simulates_pure result

theorem simulates_unary (hl : ∀ m, l = m + 1 → ExpressionsSimulate R Fails m)
    (hexpression : Simulates R Fails (expression l : Parse σ Kind Node) (expression l)) :
    Simulates R Fails (unary l : Parse σ Kind Node) (unary l) := by
  rw [unary, unary]
  apply simulates_get
  intro w w' hw
  rw [hw.current]
  apply Simulates.ite
  · apply (simulates_advance hR).bind
    intro _
    cases l with
    | zero => exact simulates_tooDeep
    | succ l => exact (hl l rfl).unary.nested.bind fun operand => simulates_pure _
  · exact simulates_primary hR hexpression

omit hR in
theorem simulates_chain {tier : Tier}
    (hoperand : Simulates R Fails (operand tier l : Parse σ Kind Node) (operand tier l))
    (hfold : ∀ left, Simulates R Fails (fold tier l left : Parse σ Kind Node) (fold tier l left)) :
    Simulates R Fails (chain tier l : Parse σ Kind Node) (chain tier l) := by
  rw [chain, chain]
  exact hoperand.bind hfold

theorem expressionsSimulate_of_lower (hl : ∀ m, l = m + 1 → ExpressionsSimulate R Fails m) :
    ExpressionsSimulate R Fails l := by
  have hfold := simulates_fold hR hl
  have hexpression : Simulates R Fails (expression l : Parse σ Kind Node) (expression l) := by
    cases l with
    | zero =>
      rw [expression, expression]
      exact simulates_tooDeep
    | succ l =>
      rw [expression, expression]
      exact ((hl l rfl).chain .sum).nested
  have hunary := simulates_unary hR hl hexpression
  have hproduct : Simulates R Fails (operand .product l : Parse σ Kind Node) (operand .product l) := by
    rw [operand, operand]
    exact hunary
  have hsum : Simulates R Fails (operand .sum l : Parse σ Kind Node) (operand .sum l) := by
    rw [operand, operand]
    exact simulates_chain hproduct (hfold .product)
  have hoperand (tier : Tier) :
      Simulates R Fails (operand tier l : Parse σ Kind Node) (operand tier l) := by
    cases tier with
    | sum => exact hsum
    | product => exact hproduct
  exact ⟨hexpression, fun tier => simulates_chain (hoperand tier) (hfold tier), hoperand, hfold,
    hunary⟩

theorem expressionsSimulate (l : Nat) : ExpressionsSimulate R Fails l := by
  induction l with
  | zero => exact expressionsSimulate_of_lower hR fun m hm => by cases hm
  | succ l ih => exact expressionsSimulate_of_lower hR fun m hm => by cases hm; exact ih

theorem simulates_branch (hl : ∀ m line, l = m + 1 →
      Simulates R Fails (branch m line : Parse σ Kind Node) (branch m line))
    (hstatement : Simulates R Fails (statement l : Parse σ Kind Node) (statement l)) (line : Nat) :
    Simulates R Fails (branch l line : Parse σ Kind Node) (branch l line) := by
  rw [branch, branch]
  apply (simulates_consume hR .leftParen).bind
  intro _
  apply (expressionsSimulate hR l).expression.bind
  intro condition
  apply (simulates_consume hR .rightParen).bind
  intro _
  apply hstatement.bind
  intro thenBody
  apply simulates_isAt
  intro split
  apply Simulates.ite
  · apply (simulates_advance hR).bind
    intro _
    apply simulates_get
    intro w w' hw
    rw [hw.line]
    apply simulates_isAt
    intro again
    apply Simulates.ite
    · apply (simulates_advance hR).bind
      intro _
      cases l with
      | zero => exact simulates_tooDeep
      | succ l => exact (hl l w.line rfl).nested.bind fun elseBody => simulates_pure _
    · exact hstatement.bind fun elseBody => simulates_pure _
  · exact simulates_pure _

theorem simulates_statement (hl : ∀ m, l = m + 1 →
      Simulates R Fails (statement m : Parse σ Kind Node) (statement m) ∧
        ∀ line, Simulates R Fails (branch m line : Parse σ Kind Node) (branch m line)) :
    Simulates R Fails (statement l : Parse σ Kind Node) (statement l) := by
  cases l with
  | zero =>
    rw [statement, statement]
    exact simulates_tooDeep
  | succ l =>
    rw [statement, statement]
    obtain ⟨hstatement, hbranch⟩ := hl l rfl
    have hexpr := (expressionsSimulate hR l).expression
    apply Simulates.nested
    apply simulates_get
    intro w w' hw
    rw [hw.line]
    apply simulates_get
    intro v v' hv
    rw [hv.current]
    split
    · exact simulates_block hR hstatement
    · exact (simulates_advance hR).bind fun _ => simulates_declaration hR hexpr .inferred w.line
    · exact simulates_identifierLed hR hexpr
    · exact simulates_function hR hexpr hstatement
    · apply (simulates_advance hR).bind
      intro _
      apply (simulates_consume hR .leftParen).bind
      intro _
      apply hexpr.bind
      intro expr
      exact (simulates_consume hR .rightParen).bind fun _ => simulates_pure _
    · apply (simulates_advance hR).bind
      intro _
      exact hexpr.bind fun value => simulates_pure _
    · exact (simulates_advance hR).bind fun _ => hbranch w.line
    · apply (simulates_advance hR).bind
      intro _
      apply hexpr.bind
      intro count
      exact hstatement.bind fun body => simulates_pure _
    · apply (simulates_advance hR).bind
      intro _
      exact hexpr.bind fun value => simulates_pure _
    iterate 8 exact hexpr
    exact simulates_pure _

theorem statementsSimulate (l : Nat) :
    Simulates R Fails (statement l : Parse σ Kind Node) (statement l) ∧
      ∀ line, Simulates R Fails (branch l line : Parse σ Kind Node) (branch l line) := by
  induction l with
  | zero =>
    have hstatement := simulates_statement (σ := σ) (l := 0) hR fun m hm => by cases hm
    exact ⟨hstatement, simulates_branch hR (fun m line hm => by cases hm) hstatement⟩
  | succ l ih =>
    have hstatement := simulates_statement (l := l + 1) hR fun m hm => by cases hm; exact ih
    exact ⟨hstatement, simulates_branch hR (fun m line hm => by cases hm; exact ih.2 line)
      hstatement⟩

theorem simulates_unit :
    Simulates R Fails (unit : Parse σ Kind Node) (unit : Parse σ' Kind Node) := by
  apply simulates_get
  intro w w' hw
  rw [hw.line]
  apply (simulates_statements hR (statementsSimulate hR nestingLimit).1 .endOfText).bind
  intro nodes
  exact (simulates_consume hR .endOfText).bind fun _ => simulates_pure _

/-- Related sources parse alike, and if that fails for a token, it fails for one that cannot be
read. -/
theorem parseFrom_alike {a : σ} {a' : σ'} (h : R a a') :
    parseFrom a = parseFrom a' ∧ ∀ e, parseFrom a = .error (.lexing e) → Fails e := by
  cases hR h with
  | @token t b b' next next' related nears nears' =>
    have hw : (⟨b, t, none, 0⟩ : Window σ Kind).Matches R ⟨b', t, none, 0⟩ :=
      ⟨related, rfl, rfl, rfl, fun ht => ⟨nears.ended ht, nears'.ended ht⟩⟩
    have hagrees := simulates_unit hR hw
    generalize hrun : (unit : Parse σ Kind Node) _ = r at hagrees
    generalize hrun' : (unit : Parse σ' Kind Node) _ = r' at hagrees
    cases hagrees with
    | ok _ _ =>
      rw [parseFrom_of_ok next hrun, parseFrom_of_ok next' hrun']
      refine ⟨rfl, ?_⟩
      rintro e ⟨⟩
    | error fails =>
      rw [parseFrom_of_error next hrun, parseFrom_of_error next' hrun']
      refine ⟨rfl, ?_⟩
      rintro e ⟨⟩
      exact fails e rfl
  | failure next next' fails =>
    simp only [parseFrom, Window.start, next, next']
    refine ⟨rfl, ?_⟩
    rintro e ⟨⟩
    exact fails

end Levels

end Grammar

end ConsoleScript
