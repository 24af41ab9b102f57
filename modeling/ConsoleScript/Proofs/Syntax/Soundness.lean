import ConsoleScript.Proofs.Syntax.Loops

/-!
# Nothing outside the grammar is accepted

Every part of the parser is sound for its rule of the grammar: when it succeeds, the tokens it took
derive the tree it gives. The rules for expressions call each other; `ExpressionsSound` collects
what holds of all of them with a number of levels left, and is proved by induction on that number.
The same goes for statements.
-/

namespace ConsoleScript.Grammar

open Parse ConsoleScript.Derivation

variable {σ α : Type} [TokenSource σ Kind]

theorem ahead_of_sees {w : Window σ Kind} {rest : Tokens} (h : w.Sees rest) {p : Kind → Prop}
    (hp : p w.current.kind) : Ahead p rest := by
  obtain ⟨behind, rfl, _⟩ := h
  rintro t ht
  cases ht
  exact hp

/-- Lists with commas between their items and a closing token behind them. The rule for such a list
is given by its cases. -/
theorem commaSeparated_ok {item : Parse σ Kind α} {closing : Kind}
    {rule : Tokens → α → Tokens → Prop} {L : Tokens → List α → Tokens → Prop}
    (hitem : Sound item rule)
    (last : ∀ {input a t rest}, rule input a (t :: rest) → t.kind = closing → L input [a] rest)
    (more : ∀ {input a t mid items rest}, rule input a (t :: mid) → t.kind = .comma →
      L mid items rest → L input (a :: items) rest)
    {w w' : Window σ Kind} {items : List α} (h : commaSeparated item closing w = .ok items w')
    {rest : Tokens} (hrest : w'.Sees rest) :
    ∃ input, w.Covers w' input rest ∧
      ((∃ t, t.kind = closing ∧ input = t :: rest ∧ items = []) ∨ L input items rest) := by
  rw [commaSeparated_eq, isAt_bind] at h
  split at h
  · rename_i hat
    obtain ⟨w₁, hsteps, h⟩ := advance_bind_ok h
    cases h
    exact ⟨_, hsteps.covers hrest, .inl ⟨_, beq_iff_eq.mp hat, rfl, rfl⟩⟩
  · have hall : ∃ input others, w.Covers w' input rest ∧ L input others rest ∧
        items = ([] : List α).reverse ++ others := by
      refine iterate_ok (P := fun done w items w' => ∀ {rest}, w'.Sees rest →
        ∃ input others, w.Covers w' input rest ∧ L input others rest ∧
          items = done.reverse ++ others) ?_ ?_ h hrest
      · intro done w items w' hstep rest hrest
        obtain ⟨a, w₁, ha, hsteps, ⟨_, hr⟩ | ⟨hkind, hr⟩⟩ := commaStep_ok hstep
        · cases hr
        · cases hr
          have hclosing := hsteps.covers hrest
          obtain ⟨input, hcovers, hrule⟩ := hitem ha hclosing.sees
          exact ⟨input, [a], hcovers.trans hclosing, last hrule hkind, rfl⟩
      · intro done w done' w₁ items w' hstep ih rest hrest
        obtain ⟨input, others, hmore, hlist, hitems⟩ := ih hrest
        obtain ⟨a, w₂, ha, hsteps, ⟨hkind, hr⟩ | ⟨_, hr⟩⟩ := commaStep_ok hstep
        · cases hr
          have hcomma := hsteps.covers hmore.sees
          obtain ⟨input', hcovers, hrule⟩ := hitem ha hcomma.sees
          exact ⟨input', a :: others, hcovers.trans (hcomma.trans hmore),
            more hrule hkind hlist, by simp [hitems]⟩
        · cases hr
    obtain ⟨input, others, hcovers, hlist, rfl⟩ := hall
    exact ⟨input, hcovers, .inr hlist⟩

theorem call_ok {l : Nat} {expr : Parse σ Kind Node} (hexpr : Sound expr (Expression l))
    {name : String} {line : Nat} {w w' : Window σ Kind} {n : Node}
    (h : call expr name line w = .ok n w') {rest : Tokens} (hrest : w'.Sees rest) :
    ∃ opening input args, w.Covers w' (opening :: input) rest ∧ opening.kind = .leftParen ∧
      Arguments l input args rest ∧ n = .call name args line := by
  obtain ⟨w₁, hopens, hsteps, h⟩ := consume_bind_ok h
  obtain ⟨args, w₂, hargs, h⟩ := bind_ok h
  cases h
  obtain ⟨input, hcovers, harguments⟩ :=
    commaSeparated_ok (L := ArgumentList l) hexpr .last .more hargs hrest
  refine ⟨w.current, input, args, (hsteps.covers hcovers.sees).trans hcovers, hopens, ?_, rfl⟩
  rcases harguments with ⟨closing, hcloses, rfl, rfl⟩ | hlist
  · exact .none hcloses
  · exact .some hlist

theorem primary_sound {l : Nat} {expr : Parse σ Kind Node} (hexpr : Sound expr (Expression l)) :
    Sound (primary expr) (Primary l) := by
  intro w n w' h rest hrest
  obtain ⟨p, hp, h⟩ := get_bind_ok h
  dsimp only at hp
  split at hp <;> subst hp
  · obtain ⟨follower, w₁, hpeek, h⟩ := bind_ok h
    obtain ⟨rfl, after, hnext⟩ := peek_ok hpeek
    obtain ⟨name, w₂, hnamed, hsteps, h⟩ := identifier_bind_ok h
    split at h
    · obtain ⟨opening, input, args, hcovers, hopens, hargs, rfl⟩ := call_ok hexpr h hrest
      exact ⟨_, (hsteps.covers hcovers.sees).trans hcovers, .call hnamed hopens hargs⟩
    · rename_i hfollower
      cases h
      refine ⟨_, hsteps.covers hrest, .variable hnamed (ahead_of_sees hrest ?_)⟩
      -- The token that was peeked at is the current one now.
      cases hnext.symm.trans hsteps.next
      exact hfollower
  · rename_i hopens
    obtain ⟨w₁, hsteps, h⟩ := advance_bind_ok h
    obtain ⟨inner, w₂, hinner, h⟩ := bind_ok h
    obtain ⟨w₃, hcloses, hsteps', h⟩ := consume_bind_ok h
    cases h
    have hclosing := hsteps'.covers hrest
    obtain ⟨input, hcovers, hrule⟩ := hexpr hinner hclosing.sees
    exact ⟨_, (hsteps.covers hcovers.sees).trans (hcovers.trans hclosing),
      .parens hopens hrule hcloses⟩
  · cases hvalue : literal? w.current with
    | none =>
      simp only [hvalue] at h
      cases h
    | some value =>
      simp only [hvalue] at h
      obtain ⟨w₁, hsteps, h⟩ := advance_bind_ok h
      cases h
      exact ⟨_, hsteps.covers hrest, .literal hvalue⟩

/-- The rules for expressions, with `l` levels left. -/
structure ExpressionsSound (σ : Type) [TokenSource σ Kind] (l : Nat) : Prop where
  expression : Sound (expression l : Parse σ Kind Node) (Expression l)
  chain (tier : Tier) : Sound (chain tier l : Parse σ Kind Node) (Chain tier l)
  operand (tier : Tier) : Sound (operand tier l : Parse σ Kind Node) (Operand tier l)
  fold (tier : Tier) (left : Node) : Sound (fold tier l left : Parse σ Kind Node)
    (Folds tier l left)
  unary : Sound (unary l : Parse σ Kind Node) (Unary l)

theorem fold_sound {l : Nat} (hl : ∀ m, l = m + 1 → ExpressionsSound σ m) (tier : Tier)
    (left : Node) : Sound (fold tier l left : Parse σ Kind Node) (Folds tier l left) := by
  intro w n w' h rest hrest
  rw [fold] at h
  obtain ⟨p, hp, h⟩ := get_bind_ok h
  dsimp only at hp
  split at hp
  · rename_i hoperator
    subst hp
    cases h
    exact ⟨rest, .refl rfl rfl rfl hrest, .stop (ahead_of_sees hrest hoperator)⟩
  · subst hp
    cases h
  · rename_i op levels hoperator
    subst hp
    have hlower := hl levels rfl
    obtain ⟨_, w₁, henter, h⟩ := bind_ok h
    obtain rfl := enter_ok henter
    obtain ⟨w₂, hsteps, h⟩ := advance_bind_ok h
    obtain ⟨right, w₃, hright, h⟩ := bind_ok h
    obtain ⟨result, w₄, hresult, h⟩ := bind_ok h
    cases h
    obtain ⟨mid, hmid, hmore⟩ := hlower.fold tier _ hresult (show w₄.Sees rest from hrest)
    obtain ⟨input, hinput, hoperand⟩ := hlower.operand tier hright hmid.sees
    have hcovers := (hsteps.covers hinput.sees).trans (hinput.trans hmid)
    exact ⟨_, ⟨hcovers.sees, hcovers.took⟩, .fold hoperator hoperand hmore⟩

theorem unary_sound {l : Nat} (hl : ∀ m, l = m + 1 → ExpressionsSound σ m)
    (hexpression : Sound (expression l : Parse σ Kind Node) (Expression l)) :
    Sound (unary l : Parse σ Kind Node) (Unary l) := by
  intro w n w' h rest hrest
  rw [unary, get_bind] at h
  split at h
  · rename_i hminus
    obtain ⟨w₁, hsteps, h⟩ := advance_bind_ok h
    cases l with
    | zero => cases h
    | succ l =>
      obtain ⟨operand, w₂, hoperand, h⟩ := bind_ok h
      cases h
      obtain ⟨input, hcovers, hrule⟩ := (hl l rfl).unary.nested hoperand hrest
      exact ⟨_, (hsteps.covers hcovers.sees).trans hcovers, .negation hminus hrule⟩
  · obtain ⟨input, hcovers, hrule⟩ := primary_sound hexpression h hrest
    exact ⟨input, hcovers, .primary hrule⟩

theorem chain_sound {l : Nat} {tier : Tier}
    (hoperand : Sound (operand tier l : Parse σ Kind Node) (Operand tier l))
    (hfold : ∀ left, Sound (fold tier l left : Parse σ Kind Node) (Folds tier l left)) :
    Sound (chain tier l : Parse σ Kind Node) (Chain tier l) := by
  intro w n w' h rest hrest
  rw [chain] at h
  obtain ⟨left, w₁, hleft, h⟩ := bind_ok h
  obtain ⟨mid, hmid, hmore⟩ := hfold left h hrest
  obtain ⟨input, hinput, hfirst⟩ := hoperand hleft hmid.sees
  exact ⟨input, hinput.trans hmid, .operands hfirst hmore⟩

theorem expressionsSound_of_lower {l : Nat} (hl : ∀ m, l = m + 1 → ExpressionsSound σ m) :
    ExpressionsSound σ l := by
  have hexpression : Sound (expression l : Parse σ Kind Node) (Expression l) := by
    intro w n w' h rest hrest
    cases l with
    | zero =>
      rw [expression] at h
      cases h
    | succ l =>
      rw [expression] at h
      obtain ⟨input, hcovers, hrule⟩ := ((hl l rfl).chain .sum).nested h hrest
      exact ⟨input, hcovers, .sum hrule⟩
  have hunary := unary_sound hl hexpression
  have hproduct : Sound (operand .product l : Parse σ Kind Node) (Operand .product l) := by
    intro w n w' h rest hrest
    rw [operand] at h
    obtain ⟨input, hcovers, hrule⟩ := hunary h hrest
    exact ⟨input, hcovers, .unary hrule⟩
  have hchain := chain_sound hproduct (fold_sound hl .product)
  have hsum : Sound (operand .sum l : Parse σ Kind Node) (Operand .sum l) := by
    intro w n w' h rest hrest
    rw [operand] at h
    obtain ⟨input, hcovers, hrule⟩ := hchain h hrest
    exact ⟨input, hcovers, .product hrule⟩
  refine ⟨hexpression, ?_, ?_, fold_sound hl, hunary⟩
  · intro tier
    cases tier with
    | sum => exact chain_sound hsum (fold_sound hl .sum)
    | product => exact hchain
  · intro tier
    cases tier with
    | sum => exact hsum
    | product => exact hproduct

theorem expressionsSound (σ : Type) [TokenSource σ Kind] (l : Nat) : ExpressionsSound σ l := by
  induction l with
  | zero => exact expressionsSound_of_lower fun m hm => by cases hm
  | succ l ih =>
    refine expressionsSound_of_lower fun m hm => ?_
    cases hm
    exact ih

/-! ### Statements -/

theorem names_sound : Sound (names : Parse σ Kind (List String)) Names := by
  intro w all w' h rest hrest
  rw [names_eq] at h
  have hall : ∃ input others, w.Covers w' input rest ∧ Names input others rest ∧
      all = ([] : List String).reverse ++ others := by
    refine iterate_ok (P := fun done w all w' => ∀ {rest}, w'.Sees rest →
      ∃ input others, w.Covers w' input rest ∧ Names input others rest ∧
        all = done.reverse ++ others) ?_ ?_ h hrest
    · intro done w all w' hstep rest hrest
      obtain ⟨name, w₁, hnamed, hsteps, ⟨_, _, hr⟩ | ⟨hkind, rfl, hr⟩⟩ := namesStep_ok hstep
      · cases hr
      · cases hr
        exact ⟨_, [name], hsteps.covers hrest, .last hnamed (ahead_of_sees hrest hkind), rfl⟩
    · intro done w done' w₁ all w' hstep ih rest hrest
      obtain ⟨input, others, hmore, hothers, hitems⟩ := ih hrest
      obtain ⟨name, w₂, hnamed, hsteps, ⟨hkind, hsteps', hr⟩ | ⟨_, _, hr⟩⟩ := namesStep_ok hstep
      · cases hr
        have hcomma := hsteps'.covers hmore.sees
        exact ⟨_, name :: others, (hsteps.covers hcomma.sees).trans (hcomma.trans hmore),
          .more hnamed hkind hothers, by simp [hitems]⟩
      · cases hr
  obtain ⟨input, others, hcovers, hnames, rfl⟩ := hall
  exact ⟨input, hcovers, hnames⟩

theorem declaration_sound {l : Nat} {expr : Parse σ Kind Node} (hexpr : Sound expr (Expression l))
    (declared : DeclaredType) (line : Nat) :
    Sound (declaration expr declared line) (Declaration l declared line) := by
  intro w n w' h rest hrest
  obtain ⟨all, w₁, hall, h⟩ := bind_ok h
  rw [isAt_bind] at h
  split at h
  · rename_i hat
    obtain ⟨w₂, hsteps, h⟩ := advance_bind_ok h
    obtain ⟨value, w₃, hvalue, h⟩ := bind_ok h
    cases h
    obtain ⟨mid, hmid, hinitializer⟩ := hexpr hvalue hrest
    have hassign := hsteps.covers hmid.sees
    obtain ⟨input, hinput, hnames⟩ := names_sound hall hassign.sees
    exact ⟨input, hinput.trans (hassign.trans hmid),
      .initialized hnames (beq_iff_eq.mp hat) hinitializer⟩
  · rename_i hat
    split at h
    · cases h
    · rename_i hdeclared
      cases h
      obtain ⟨input, hinput, hnames⟩ := names_sound hall hrest
      cases declared with
      | inferred => exact absurd rfl hdeclared
      | named type =>
        refine ⟨input, hinput, .plain hnames (ahead_of_sees hrest ?_)⟩
        exact fun hassign => hat (beq_iff_eq.mpr hassign)

theorem identifierLed_sound {l : Nat} {expr : Parse σ Kind Node}
    (hexpr : Sound expr (Expression l)) : Sound (identifierLed expr) (Statement (l + 1)) := by
  intro w n w' h rest hrest
  obtain ⟨_, rfl, h⟩ := get_bind_ok h
  obtain ⟨name, w₁, hnamed, hsteps, h⟩ := identifier_bind_ok h
  obtain ⟨p, hp, h⟩ := get_bind_ok h
  split at hp
  · subst hp
    obtain ⟨opening, input, args, hcovers, hopens, hargs, rfl⟩ := call_ok hexpr h hrest
    exact ⟨_, (hsteps.covers hcovers.sees).trans hcovers, .call hnamed hopens hargs⟩
  · rename_i hassigns
    subst hp
    obtain ⟨w₂, hsteps', h⟩ := advance_bind_ok h
    obtain ⟨value, w₃, hvalue, h⟩ := bind_ok h
    cases h
    obtain ⟨input, hcovers, hrule⟩ := hexpr hvalue hrest
    have hassign := hsteps'.covers hcovers.sees
    exact ⟨_, (hsteps.covers hassign.sees).trans (hassign.trans hcovers),
      .assignment hnamed hassigns hrule⟩
  · rename_i hahead
    subst hp
    obtain ⟨input, hcovers, hrule⟩ := declaration_sound hexpr (.named name) _ h hrest
    have hsees := hcovers.sees
    obtain ⟨behind, rfl, _⟩ := hsees
    exact ⟨_, (hsteps.covers hcovers.sees).trans hcovers, .declaration hnamed hahead hrule⟩
  · rename_i hparen hassign hidentifier
    subst hp
    cases h
    exact ⟨_, hsteps.covers hrest,
      .lone hnamed (ahead_of_sees hrest ⟨hparen, hassign, hidentifier⟩)⟩

theorem parameter_sound :
    Sound (parameter : Parse σ Kind ConsoleScript.Parameter) Derivation.Parameter := by
  intro w param w' h rest hrest
  obtain ⟨type, w₁, htype, h⟩ := bind_ok h
  obtain ⟨name, w₂, hname, h⟩ := bind_ok h
  cases h
  obtain ⟨htype_named, hsteps⟩ := identifier_ok htype
  obtain ⟨hnamed, hsteps'⟩ := identifier_ok hname
  have hcovers := hsteps'.covers hrest
  exact ⟨_, (hsteps.covers hcovers.sees).trans hcovers, .typed htype_named hnamed⟩

theorem endsInBrace_of_previous {l : Nat} {w w' : Window σ Kind} {input rest : Tokens} {n : Node}
    (hcovers : w.Covers w' input rest) (hrule : Statement l input n rest)
    (hbrace : w'.previous = some .rightBrace) (hnoOp : n.isNoOp = false) :
    EndsInBrace input n rest := by
  -- A statement that takes nothing is empty, so the brace is one of its own tokens.
  rcases hcovers.last hbrace with heq | ⟨taken, t, htaken, ht⟩
  · rcases hrule.length_lt_or with hlt | ⟨_, hempty⟩
    · rw [heq] at hlt
      exact absurd hlt (Nat.lt_irrefl _)
    · rw [hnoOp] at hempty
      cases hempty
  · exact ⟨hnoOp, taken, t, htaken, ht⟩

theorem statements_sound {l : Nat} {stmt : Parse σ Kind Node} (hstmt : Sound stmt (Statement l))
    (closing : Kind) : Sound (statements stmt closing) (Statements l closing) := by
  intro w nodes w' h rest hrest
  rw [statements_eq] at h
  have hall : ∃ input others, w.Covers w' input rest ∧ Statements l closing input others rest ∧
      nodes = ([] : List Node).reverse ++ others := by
    refine iterate_ok (P := fun done w nodes w' => ∀ {rest}, w'.Sees rest →
      ∃ input others, w.Covers w' input rest ∧ Statements l closing input others rest ∧
        nodes = done.reverse ++ others) ?_ ?_ h hrest
    · intro done w nodes w' hstep rest hrest
      obtain ⟨_, _, hr⟩ | ⟨hcloses, rfl, hr⟩ | ⟨_, _, _, hr, _⟩ := statementsStep_ok hstep
      · cases hr
      · cases hr
        have hcovers := Window.Covers.refl rfl rfl rfl hrest
        obtain ⟨behind, rfl, _⟩ := hrest
        exact ⟨_, [], hcovers, .done hcloses, by simp⟩
      · cases hr
    · intro done w done' w₁ nodes w' hstep ih rest hrest
      obtain ⟨mid, others, hmore, hothers, hnodes⟩ := ih hrest
      obtain ⟨hsemicolon, hsteps, hr⟩ | ⟨_, _, hr⟩ | ⟨hhead, node, hnode, hr, hseparated⟩ :=
        statementsStep_ok hstep
      · cases hr
        exact ⟨_, others, (hsteps.covers hmore.sees).trans hmore,
          .semicolon hsemicolon hothers, hnodes⟩
      · cases hr
      · cases hr
        obtain ⟨input, hcovers, hrule⟩ := hstmt hnode hmore.sees
        refine ⟨input, node :: others, hcovers.trans hmore, ?_, by simp [hnodes]⟩
        have hsees := hcovers.sees
        obtain ⟨behind, rfl, _⟩ := hsees
        have hsees' := hmore.sees
        obtain ⟨behind', rfl, _⟩ := hsees'
        refine .statement hhead hrule ?_ hothers
        rcases hseparated with hsemi | hclose | ⟨hbrace, hnoOp⟩
        · exact .inl hsemi
        · exact .inr (.inl hclose)
        · exact .inr (.inr (endsInBrace_of_previous hcovers hrule hbrace hnoOp))
  obtain ⟨input, others, hcovers, hrule, rfl⟩ := hall
  exact ⟨input, hcovers, hrule⟩

theorem block_sound {l : Nat} {stmt : Parse σ Kind Node} (hstmt : Sound stmt (Statement l)) :
    Sound (block stmt) (Block l) := by
  intro w n w' h rest hrest
  obtain ⟨_, rfl, h⟩ := get_bind_ok h
  obtain ⟨w₁, hopens, hsteps, h⟩ := consume_bind_ok h
  obtain ⟨nodes, w₂, hnodes, h⟩ := bind_ok h
  obtain ⟨w₃, hcloses, hsteps', h⟩ := consume_bind_ok h
  cases h
  have hclosing := hsteps'.covers hrest
  obtain ⟨input, hcovers, hrule⟩ := statements_sound hstmt .rightBrace hnodes hclosing.sees
  exact ⟨_, (hsteps.covers hcovers.sees).trans (hcovers.trans hclosing),
    .braces hopens hrule hcloses⟩

theorem functionBody_sound {l : Nat} {expr stmt : Parse σ Kind Node}
    (hexpr : Sound expr (Expression l)) (hstmt : Sound stmt (Statement l)) (returnType : String) :
    Sound (functionBody expr stmt returnType) (Body l returnType) := by
  intro w n w' h rest hrest
  obtain ⟨p, hp, h⟩ := get_bind_ok h
  split at hp
  · subst hp
    obtain ⟨input, hcovers, hrule⟩ := block_sound hstmt h hrest
    exact ⟨input, hcovers, .block hrule⟩
  · rename_i hbrace
    have hbrace : w.current.kind ≠ .leftBrace := by simpa [Window.isAt] using hbrace
    split at hp
    · rename_i hresult
      obtain ⟨htype, hreturn⟩ : returnType ≠ "void" ∧ w.current.kind ≠ .return := by
        simpa [Window.isAt] using hresult
      subst hp
      obtain ⟨value, w₁, hvalue, h⟩ := bind_ok h
      cases h
      obtain ⟨input, hcovers, hrule⟩ := hexpr hvalue hrest
      have hsees := hcovers.sees
      obtain ⟨behind, rfl, _⟩ := hsees
      exact ⟨_, hcovers, .expression htype ⟨hbrace, hreturn⟩ hrule⟩
    · rename_i hresult
      have hresult : returnType = "void" ∨ w.current.kind = .return := by
        simp only [Window.isAt, ne_eq, decide_not, Bool.and_eq_true, Bool.not_eq_true',
          decide_eq_false_iff_not, beq_eq_false_iff_ne] at hresult
        exact Decidable.or_iff_not_not_and_not.mpr hresult
      subst hp
      obtain ⟨body, w₁, hbody, h⟩ := bind_ok h
      cases h
      obtain ⟨input, hcovers, hrule⟩ := hstmt hbody hrest
      have hsees := hcovers.sees
      obtain ⟨behind, rfl, _⟩ := hsees
      exact ⟨_, hcovers, .statement hresult hbrace hrule⟩

theorem function_sound {l : Nat} {expr stmt : Parse σ Kind Node}
    (hexpr : Sound expr (Expression l)) (hstmt : Sound stmt (Statement l)) :
    Sound (function expr stmt) (Statement (l + 1)) := by
  intro w n w' h rest hrest
  obtain ⟨_, rfl, h⟩ := get_bind_ok h
  obtain ⟨w₁, hhead, hsteps, h⟩ := consume_bind_ok h
  obtain ⟨returnType, w₂, htype_named, hsteps₁, h⟩ := identifier_bind_ok h
  obtain ⟨name, w₃, hnamed, hsteps₂, h⟩ := identifier_bind_ok h
  obtain ⟨w₄, hopens, hsteps₃, h⟩ := consume_bind_ok h
  obtain ⟨params, w₅, hparams, h⟩ := bind_ok h
  obtain ⟨body, w₆, hbody, h⟩ := bind_ok h
  cases h
  obtain ⟨mid, hmid, hbody_rule⟩ := functionBody_sound hexpr hstmt returnType hbody hrest
  obtain ⟨input, hcovers, hparameters⟩ :=
    commaSeparated_ok (L := ParameterList) parameter_sound .last .more hparams hmid.sees
  have hopening := hsteps₃.covers hcovers.sees
  have hfunction := hsteps₂.covers hopening.sees
  have hreturns := hsteps₁.covers hfunction.sees
  have hall := (hsteps.covers hreturns.sees).trans
    (hreturns.trans (hfunction.trans (hopening.trans (hcovers.trans hmid))))
  refine ⟨_, hall, .function hhead htype_named hnamed hopens ?_ hbody_rule⟩
  rcases hparameters with ⟨closing, hcloses, rfl, rfl⟩ | hlist
  · exact .none hcloses
  · exact .some hlist

/-- The rules for statements, with `l` levels left, take what they derive. -/
structure StatementsSound (σ : Type) [TokenSource σ Kind] (l : Nat) : Prop where
  statement : Sound (statement l : Parse σ Kind Node) (Statement l)
  branch (line : Nat) : Sound (branch l line : Parse σ Kind Node) (Branch l line)

theorem statement_sound {l : Nat} (hl : ∀ m, l = m + 1 → StatementsSound σ m) :
    Sound (statement l : Parse σ Kind Node) (Statement l) := by
  cases l with
  | zero =>
    intro w n w' h
    rw [Grammar.statement] at h
    cases h
  | succ l =>
    rw [Grammar.statement]
    obtain ⟨hstatement, hbranch⟩ := hl l rfl
    have hexpr := (expressionsSound σ l).expression
    refine Sound.nested ?_
    intro w n w' h rest hrest
    obtain ⟨_, rfl, h⟩ := get_bind_ok h
    obtain ⟨p, hp, h⟩ := get_bind_ok h
    split at hp
    · subst hp
      obtain ⟨input, hcovers, hrule⟩ := block_sound hstatement h hrest
      exact ⟨input, hcovers, .block hrule⟩
    · rename_i hhead
      subst hp
      obtain ⟨w₁, hsteps, h⟩ := advance_bind_ok h
      obtain ⟨input, hcovers, hrule⟩ := declaration_sound hexpr .inferred _ h hrest
      exact ⟨_, (hsteps.covers hcovers.sees).trans hcovers, .inferred hhead hrule⟩
    · subst hp
      exact identifierLed_sound hexpr h hrest
    · subst hp
      exact function_sound hexpr hstatement h hrest
    · rename_i hhead
      subst hp
      obtain ⟨w₁, hsteps, h⟩ := advance_bind_ok h
      obtain ⟨w₂, hopens, hsteps₁, h⟩ := consume_bind_ok h
      obtain ⟨inner, w₃, hinner, h⟩ := bind_ok h
      obtain ⟨w₄, hcloses, hsteps₂, h⟩ := consume_bind_ok h
      cases h
      have hclosing := hsteps₂.covers hrest
      obtain ⟨input, hcovers, hrule⟩ := hexpr hinner hclosing.sees
      have hopening := hsteps₁.covers hcovers.sees
      exact ⟨_, (hsteps.covers hopening.sees).trans (hopening.trans (hcovers.trans hclosing)),
        .typeOf hhead hopens hrule hcloses⟩
    · rename_i hhead
      subst hp
      obtain ⟨w₁, hsteps, h⟩ := advance_bind_ok h
      obtain ⟨value, w₂, hvalue, h⟩ := bind_ok h
      cases h
      obtain ⟨input, hcovers, hrule⟩ := hexpr hvalue hrest
      exact ⟨_, (hsteps.covers hcovers.sees).trans hcovers, .returning hhead hrule⟩
    · rename_i hhead
      subst hp
      obtain ⟨w₁, hsteps, h⟩ := advance_bind_ok h
      obtain ⟨input, hcovers, hrule⟩ := hbranch _ h hrest
      exact ⟨_, (hsteps.covers hcovers.sees).trans hcovers, .branch hhead hrule⟩
    · rename_i hhead
      subst hp
      obtain ⟨w₁, hsteps, h⟩ := advance_bind_ok h
      obtain ⟨count, w₂, hcount, h⟩ := bind_ok h
      obtain ⟨body, w₃, hbody, h⟩ := bind_ok h
      cases h
      obtain ⟨mid, hmid, hbody_rule⟩ := hstatement hbody hrest
      obtain ⟨input, hcovers, hrule⟩ := hexpr hcount hmid.sees
      exact ⟨_, (hsteps.covers hcovers.sees).trans (hcovers.trans hmid),
        .loop hhead hrule hbody_rule⟩
    · rename_i hhead
      subst hp
      obtain ⟨w₁, hsteps, h⟩ := advance_bind_ok h
      obtain ⟨value, w₂, hvalue, h⟩ := bind_ok h
      cases h
      obtain ⟨input, hcovers, hrule⟩ := hexpr hvalue hrest
      exact ⟨_, (hsteps.covers hcovers.sees).trans hcovers, .print hhead hrule⟩
    iterate 8
      rename_i hhead
      subst hp
      obtain ⟨input, hcovers, hrule⟩ := hexpr h hrest
      have hsees := hcovers.sees
      obtain ⟨behind, rfl, _⟩ := hsees
      exact ⟨_, hcovers, .expression (by rw [hhead]; rfl) hrule⟩
    subst hp
    cases h
    have hcovers := Window.Covers.refl rfl rfl rfl hrest
    obtain ⟨behind, rfl, _⟩ := hrest
    refine ⟨_, hcovers, .empty ?_⟩
    cases hkind : w.current.kind <;> first | rfl | contradiction

theorem branch_sound {l : Nat} (hl : ∀ m, l = m + 1 → StatementsSound σ m)
    (hstatement : Sound (statement l : Parse σ Kind Node) (Statement l)) (line : Nat) :
    Sound (branch l line : Parse σ Kind Node) (Branch l line) := by
  intro w n w' h rest hrest
  rw [Grammar.branch] at h
  have hexpr := (expressionsSound σ l).expression
  obtain ⟨w₁, hopens, hsteps, h⟩ := consume_bind_ok h
  obtain ⟨condition, w₂, hcondition, h⟩ := bind_ok h
  obtain ⟨w₃, hcloses, hsteps₁, h⟩ := consume_bind_ok h
  obtain ⟨thenBody, w₄, hthen, h⟩ := bind_ok h
  -- Whatever stands behind the first body, the tokens before it are those of the test and the body.
  have hfront : ∀ {mid}, w₄.Sees mid → ∃ input behind, w.Covers w₄ (w.current :: input) mid ∧
      Expression l input condition (w₂.current :: behind) ∧ Statement l behind thenBody mid := by
    intro mid hmid
    obtain ⟨behind, hbehind, hbody⟩ := hstatement hthen hmid
    have hclosing := hsteps₁.covers hbehind.sees
    obtain ⟨input, hcovers, htest⟩ := hexpr hcondition hclosing.sees
    exact ⟨input, behind,
      (hsteps.covers hcovers.sees).trans (hcovers.trans (hclosing.trans hbehind)), htest, hbody⟩
  rw [isAt_bind] at h
  split at h
  · rename_i hat
    obtain ⟨w₅, hsteps₂, h⟩ := advance_bind_ok h
    rw [get_bind, isAt_bind] at h
    split at h
    · rename_i hif
      obtain ⟨w₆, hsteps₃, h⟩ := advance_bind_ok h
      cases l with
      | zero => cases h
      | succ l =>
        obtain ⟨elseBody, w₇, helse, h⟩ := bind_ok h
        cases h
        obtain ⟨last, hlast, hrule⟩ := ((hl l rfl).branch _).nested helse hrest
        have hagain := hsteps₃.covers hlast.sees
        have hother := hsteps₂.covers hagain.sees
        obtain ⟨input, behind, hcovers, htest, hbody⟩ := hfront hother.sees
        exact ⟨_, hcovers.trans (hother.trans (hagain.trans hlast)),
          .chained hopens htest hcloses hbody (beq_iff_eq.mp hat) (beq_iff_eq.mp hif) hrule⟩
    · rename_i hif
      obtain ⟨elseBody, w₆, helse, h⟩ := bind_ok h
      cases h
      obtain ⟨last, hlast, hrule⟩ := hstatement helse hrest
      have hother := hsteps₂.covers hlast.sees
      obtain ⟨input, behind, hcovers, htest, hbody⟩ := hfront hother.sees
      have hsees := hlast.sees
      obtain ⟨behind', rfl, _⟩ := hsees
      exact ⟨_, hcovers.trans (hother.trans hlast), .otherwise hopens htest hcloses hbody
        (beq_iff_eq.mp hat) (fun heq => hif (beq_iff_eq.mpr heq)) hrule⟩
  · rename_i hat
    cases h
    obtain ⟨input, behind, hcovers, htest, hbody⟩ := hfront hrest
    refine ⟨_, hcovers, .single hopens htest hcloses hbody (ahead_of_sees hrest ?_)⟩
    exact fun heq => hat (beq_iff_eq.mpr heq)

theorem statementsSound_of_lower {l : Nat} (hl : ∀ m, l = m + 1 → StatementsSound σ m) :
    StatementsSound σ l :=
  ⟨statement_sound hl, branch_sound hl (statement_sound hl)⟩

theorem statementsSound (σ : Type) [TokenSource σ Kind] (l : Nat) : StatementsSound σ l := by
  induction l with
  | zero => exact statementsSound_of_lower fun m hm => by cases hm
  | succ l ih => exact statementsSound_of_lower fun m hm => by cases hm; exact ih

/-- The tokens of an accepted source derive its tree. -/
theorem parseFrom_sound {source : σ} {tree : Node} (h : parseFrom source = .ok tree) :
    ∃ input, Delivers source input ∧ Derivation.Unit nestingLimit input tree := by
  cases hnext : TokenSource.next source with
  | error e after =>
    unfold parseFrom Window.start at h
    rw [hnext] at h
    cases h
  | ok t after =>
    cases hunit : unit ⟨after, t, none, 0⟩ with
    | ok n w' =>
      rw [parseFrom_of_ok hnext hunit] at h
      cases h
      obtain ⟨_, rfl, hunit⟩ := get_bind_ok hunit
      obtain ⟨nodes, w₁, hnodes, hunit⟩ := bind_ok hunit
      obtain ⟨last, w₂, hlast, hunit⟩ := bind_ok hunit
      cases hunit
      have hstatement := (statementsSound σ nestingLimit).statement
      obtain ⟨input, hcovers, hrule⟩ :=
        statements_sound hstatement .endOfText hnodes w₁.sees_current
      obtain ⟨behind, rfl, hbehind⟩ := hcovers.sees
      exact ⟨_, .cons hnext hbehind, .statements hrule⟩
    | error e w' =>
      rw [parseFrom_of_error hnext hunit] at h
      cases h

end ConsoleScript.Grammar
