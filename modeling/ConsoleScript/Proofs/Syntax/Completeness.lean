import ConsoleScript.Proofs.Syntax.Loops

/-!
# Everything in the grammar is accepted

The parser reads whatever the grammar derives and gives the derived tree, unless the derivation goes
down more levels than are left. The induction is on the derivation; the levels that it needs and
those that the parser has are independent of each other.
-/

namespace ConsoleScript.Derivation

open Grammar Parse

variable {σ α : Type} [TokenSource σ Kind]

/-! ### How expressions begin -/

theorem kind_of_literal {t : Token Kind} {value : Value} (h : literal? t = some value) :
    startsExpression t.kind ∧ t.kind ≠ .minus ∧ t.kind ≠ .leftParen ∧ t.kind ≠ .identifier := by
  cases hkind : t.kind <;> first | decide | simp [literal?, hkind] at h

/-- The tokens are not empty, and an expression can begin with the first of them. -/
def Begins (input : Tokens) : Prop :=
  ∃ t behind, input = t :: behind ∧ (t.kind = .identifier ∨ startsExpression t.kind)

theorem Primary.begins {k : Nat} {input rest : Tokens} {n : Node} (h : Primary k input n rest) :
    Begins input := by
  cases h with
  | call named => exact ⟨_, _, rfl, .inl named.1⟩
  | «variable» named => exact ⟨_, _, rfl, .inl named.1⟩
  | literal spells => exact ⟨_, _, rfl, .inr (kind_of_literal spells).1⟩
  | parens opens => exact ⟨_, _, rfl, .inr (by rw [opens]; rfl)⟩

theorem Unary.begins {k : Nat} {input rest : Tokens} {n : Node} (h : Unary k input n rest) :
    Begins input := by
  cases h with
  | negation minus => exact ⟨_, _, rfl, .inr (by rw [minus]; rfl)⟩
  | primary h => exact h.begins

mutual

theorem Chain.begins {tier : Tier} {k : Nat} {input rest : Tokens} {n : Node} :
    Chain tier k input n rest → Begins input
  | .operands first _ => first.begins

theorem Operand.begins {tier : Tier} {k : Nat} {input rest : Tokens} {n : Node} :
    Operand tier k input n rest → Begins input
  | .product h => h.begins
  | .unary h => h.begins

end

theorem Expression.begins {k : Nat} {input rest : Tokens} {n : Node}
    (h : Expression k input n rest) : Begins input := by
  cases h with
  | sum h => exact h.begins

theorem ArgumentList.begins {k : Nat} {input rest : Tokens} {args : List Node}
    (h : ArgumentList k input args rest) : Begins input := by
  cases h with
  | last item => exact item.begins
  | more item => exact item.begins

theorem Primary.head_ne_minus {k : Nat} {t : Token Kind} {input rest : Tokens} {n : Node} :
    Primary k (t :: input) n rest → t.kind ≠ .minus
  | .call named _ _ => by simp [named.1]
  | .variable named _ => by simp [named.1]
  | .literal spells => (kind_of_literal spells).2.1
  | .parens opens _ _ => by simp [opens]

/-! ### Expressions -/

mutual

theorem Expression.reads {k : Nat} {input rest : Tokens} {n : Node} :
    Expression k input n rest → ∀ l, rest ≠ [] →
      Reads (expression l : Parse σ Kind Node) l k input n rest
  | .sum h, 0, _ => by
    rw [expression]
    exact reads_tooDeep (Nat.succ_pos _) n input rest
  | .sum h, l + 1, hrest => by
    rw [expression]
    exact (h.reads l hrest).nested

theorem Chain.reads {tier : Tier} {k : Nat} {input rest : Tokens} {n : Node} :
    Chain tier k input n rest → ∀ l, rest ≠ [] →
      Reads (chain tier l : Parse σ Kind Node) l k input n rest
  | .operands first more, l, hrest => by
    rw [chain]
    exact (first.reads l (more.takes.ne_nil hrest)).bind (more.reads l hrest)

theorem Operand.reads {tier : Tier} {k : Nat} {input rest : Tokens} {n : Node} :
    Operand tier k input n rest → ∀ l, rest ≠ [] →
      Reads (operand tier l : Parse σ Kind Node) l k input n rest
  | .product h, l, hrest => by
    rw [operand]
    exact h.reads l hrest
  | .unary h, l, hrest => by
    rw [operand]
    exact h.reads l hrest

theorem Folds.reads {tier : Tier} {k : Nat} {left n : Node} {input rest : Tokens} :
    Folds tier k left input n rest → ∀ l, rest ≠ [] →
      Reads (fold tier l left : Parse σ Kind Node) l k input n rest
  | .stop ahead, l, hrest => by
    obtain ⟨t, behind, rfl⟩ := List.exists_cons_of_ne_nil hrest
    rw [fold]
    refine reads_get fun w hw => ?_
    simp only [hw, ahead t rfl]
    exact reads_pure left _
  | .fold operator operand more, 0, hrest => by
    rw [Grammar.fold]
    refine reads_get fun w hw => ?_
    simp only [hw, operator]
    exact reads_tooDeep (Nat.succ_pos _) n _ rest
  | @Folds.fold _ _ _ _ _ t op _ _ _ operator operand more, l + 1, hrest => by
    rw [Grammar.fold]
    refine reads_get fun w hw => ?_
    simp only [hw, operator]
    have hmid := more.takes.ne_nil hrest
    have htaken : Reads (do
        let _ ← advance
        let right ← Grammar.operand tier l
        fold tier l (.binary left op right t.line)) l _ (t :: _) n rest :=
      (reads_advance (isEnd_eq_false (operator_not_end operator)) (operand.takes.ne_nil hmid)).bind
        ((operand.reads l hmid).bind (more.reads l hrest))
    have hall := htaken.between
    simp only [bind_assoc] at hall
    exact hall

theorem Unary.reads {k : Nat} {input rest : Tokens} {n : Node} :
    Unary k input n rest → ∀ l, rest ≠ [] →
      Reads (unary l : Parse σ Kind Node) l k input n rest
  | .negation minus operand, l, hrest => by
    rw [unary]
    refine reads_get fun w hw => ?_
    rw [hw, if_pos minus]
    refine (reads_advance_of_kind minus (by decide)
      (operand.takes.ne_nil hrest)).bind ?_
    cases l with
    | zero => exact reads_tooDeep (Nat.succ_pos _) _ _ rest
    | succ l => exact (operand.reads l hrest).nested.bind (reads_pure _ rest)
  | .primary h, l, hrest => by
    have hreads := h.reads l hrest
    obtain ⟨t, behind, rfl, _⟩ := h.begins
    rw [unary]
    refine reads_get fun w hw => ?_
    rw [hw, if_neg h.head_ne_minus]
    exact hreads

theorem Primary.reads {k : Nat} {input rest : Tokens} {n : Node} :
    Primary k input n rest → ∀ l, rest ≠ [] →
      Reads (primary (expression l) : Parse σ Kind Node) l k input n rest
  | .call named opens arguments, l, hrest => by
    have hinput := arguments.takes.ne_nil hrest
    refine reads_get fun w hw => ?_
    simp only [hw, named.1]
    refine reads_peek ((named.reads (by simp)).bind ?_)
    rw [if_pos opens]
    refine (reads_consume_of_kind opens (by decide) hinput).bind ?_
    exact (arguments.reads l hrest).bind (reads_pure _ rest)
  | .variable named ahead, l, hrest => by
    obtain ⟨t, behind, rfl⟩ := List.exists_cons_of_ne_nil hrest
    refine reads_get fun w hw => ?_
    simp only [hw, named.1]
    refine reads_peek ((named.reads (by simp)).bind ?_)
    rw [if_neg (ahead t rfl)]
    exact reads_pure _ _
  | .literal spells, l, hrest => by
    obtain ⟨_, _, hparen, hidentifier⟩ := kind_of_literal spells
    refine reads_get fun w hw => ?_
    simp only [hw, spells]
    exact (reads_advance (isEnd_eq_false (literal_not_end spells)) hrest).bind (reads_pure _ rest)
  | .parens opens inner closes, l, hrest => by
    refine reads_get fun w hw => ?_
    simp only [hw, opens]
    refine (reads_advance_of_kind opens (by decide) (inner.takes.ne_nil (by simp))).bind ?_
    refine (inner.reads l (by simp)).bind ?_
    refine (reads_consume_of_kind closes (by decide) hrest).bind ?_
    exact reads_pure n rest

theorem Arguments.reads {k : Nat} {input rest : Tokens} {args : List Node} :
    Arguments k input args rest → ∀ l, rest ≠ [] →
      Reads (commaSeparated (expression l : Parse σ Kind Node) .rightParen) l k input args rest
  | .none closes, l, hrest => reads_commaSeparated_nil closes (by decide) hrest
  | .some h, l, hrest => by
    have hreads := h.reads l [] hrest
    obtain ⟨t, behind, rfl, hbegins⟩ := h.begins
    refine reads_commaSeparated_loop ?_ hreads
    rintro hparen
    simp [hparen, startsExpression] at hbegins

theorem ArgumentList.reads {k : Nat} {input rest : Tokens} {args : List Node} :
    ArgumentList k input args rest → ∀ l done, rest ≠ [] →
      Reads (iterate (commaStep (expression l : Parse σ Kind Node) .rightParen) done) l k input
        (done.reverse ++ args) rest
  | .last item closes, l, done, hrest =>
    (reads_commaStep_last done (item.reads l (by simp)) closes (by decide)
      (by decide) hrest).last
  | .more item separates others, l, done, hrest => by
    have hmid := others.takes.ne_nil hrest
    refine (reads_commaStep_more done (item.reads l (by simp)) separates hmid).again ?_ ?_
    · exact Nat.lt_trans (Nat.lt_succ_self _) item.length_lt
    · rw [List.append_cons, ← List.reverse_cons]
      exact others.reads l (_ :: done) hrest

end

/-! ### Declarations and parameters -/

theorem Names.reads {l k : Nat} {input rest : Tokens} {all : List String} :
    Names input all rest → ∀ done, rest ≠ [] →
      Reads (iterate (namesStep : _ → Parse σ Kind _) done) l k input (done.reverse ++ all) rest
  | .last named ahead, done, hrest => (reads_namesStep_last done named ahead hrest).last
  | .more named separates others, done, hrest => by
    refine (reads_namesStep_more done named separates (others.takes.ne_nil hrest)).again ?_ ?_
    · simp only [List.length_cons]
      omega
    · rw [List.append_cons, ← List.reverse_cons]
      exact others.reads (_ :: done) hrest

theorem Declaration.reads {k line : Nat} {declared : DeclaredType} {input rest : Tokens}
    {n : Node} (h : Declaration k declared line input n rest) (l : Nat) (hrest : rest ≠ []) :
    Reads (declaration (expression l : Parse σ Kind Node) declared line) l k input n rest := by
  cases h with
  | plain declares ahead =>
    obtain ⟨t, behind, rfl⟩ := List.exists_cons_of_ne_nil hrest
    refine (declares.reads [] hrest).bind (reads_isAt ?_)
    rw [beq_eq_false_iff_ne.mpr (ahead t rfl)]
    exact reads_pure _ _
  | initialized declares assigns initializer =>
    refine (declares.reads [] (List.cons_ne_nil _ _)).bind (reads_isAt ?_)
    rw [assigns, beq_self_eq_true, if_pos rfl]
    refine (reads_advance_of_kind assigns (by decide)
      (initializer.takes.ne_nil hrest)).bind ?_
    exact (initializer.reads l hrest).bind (reads_pure _ rest)

theorem Parameter.reads {l k : Nat} {input rest : Tokens} {param : ConsoleScript.Parameter}
    (h : Parameter input param rest) (hrest : rest ≠ []) :
    Reads (parameter : Parse σ Kind _) l k input param rest := by
  cases h with
  | typed type_named named =>
    exact (type_named.reads (List.cons_ne_nil _ _)).bind
      ((named.reads hrest).bind (reads_pure _ rest))

theorem ParameterList.reads {l k : Nat} {input rest : Tokens}
    {params : List ConsoleScript.Parameter} :
    ParameterList input params rest → ∀ done, rest ≠ [] →
      Reads (iterate (commaStep (parameter : Parse σ Kind _) .rightParen) done) l k input
        (done.reverse ++ params) rest
  | .last item closes, done, hrest =>
    (reads_commaStep_last done (item.reads (List.cons_ne_nil _ _)) closes (by decide)
      (by decide) hrest).last
  | .more item separates others, done, hrest => by
    have hmid := others.takes.ne_nil hrest
    refine (reads_commaStep_more done (item.reads (List.cons_ne_nil _ _)) separates hmid).again
      ?_ ?_
    · have hle := item.takes.length_le
      simp only [List.length_cons] at hle
      omega
    · rw [List.append_cons, ← List.reverse_cons]
      exact others.reads (_ :: done) hrest

theorem Parameters.reads {l k : Nat} {input rest : Tokens} {params : List ConsoleScript.Parameter}
    (h : Parameters input params rest) (hrest : rest ≠ []) :
    Reads (commaSeparated (parameter : Parse σ Kind _) .rightParen) l k input params rest := by
  cases h with
  | none closes =>
    exact reads_commaSeparated_nil closes (by decide) hrest
  | some h =>
    have hreads := h.reads (σ := σ) (l := l) (k := k) [] hrest
    obtain ⟨t, behind, rfl, hkind⟩ : ∃ t behind, input = t :: behind ∧ t.kind = .identifier := by
      cases h with
      | last item _ => cases item with | typed named _ => exact ⟨_, _, rfl, named.1⟩
      | more item _ _ => cases item with | typed named _ => exact ⟨_, _, rfl, named.1⟩
    exact reads_commaSeparated_loop (by simp [hkind]) hreads

/-! ### Statements -/

/-- The rule for a statement on the line whose first token is of the given kind. -/
def ruleFor (l line : Nat) : Kind → Parse σ Kind Node
  | .leftBrace => block (statement l)
  | .var => do
    let _ ← advance
    declaration (expression l) .inferred line
  | .identifier => identifierLed (expression l)
  | .func => function (expression l) (statement l)
  | .typeOf => do
    let _ ← advance
    let _ ← consume .leftParen
    let expr ← expression l
    let _ ← consume .rightParen
    return .typeOf expr line
  | .return => do
    let _ ← advance
    return .returning (← expression l) line
  | .if => do
    let _ ← advance
    branch l line
  | .loop => do
    let _ ← advance
    let count ← expression l
    return .loop count (← statement l) line
  | .print => do
    let _ ← advance
    return .print (← expression l) line
  | .null | .integer | .float | .string | .true | .false | .leftParen | .minus => expression l
  | _ => return .noOp line

theorem ruleFor_of_startsExpression {l line : Nat} {kind : Kind} (h : startsExpression kind) :
    ruleFor l line kind = (expression l : Parse σ Kind Node) := by
  cases kind <;> first | rfl | cases h

theorem ruleFor_of_not_startsStatement {l line : Nat} {kind : Kind}
    (h : startsStatement kind = false) :
    ruleFor l line kind = (pure (.noOp line) : Parse σ Kind Node) := by
  cases kind <;> first | rfl | cases h

theorem reads_statement {k : Nat} {t : Token Kind} {input rest : Tokens} {n : Node}
    (h : ∀ l, Reads (ruleFor l t.line t.kind : Parse σ Kind Node) l k (t :: input) n rest)
    (l : Nat) : Reads (statement l : Parse σ Kind Node) l (k + 1) (t :: input) n rest := by
  cases l with
  | zero =>
    rw [statement]
    exact reads_tooDeep (Nat.succ_pos k) n _ rest
  | succ l =>
    rw [statement]
    refine Reads.nested (reads_get fun w hw => reads_get fun w' hw' => ?_)
    have hrule := h l
    rw [← hw] at hrule
    simp only [hw']
    rw [← hw]
    exact hrule

theorem Block.opening {k : Nat} {input rest : Tokens} {n : Node} (h : Block k input n rest) :
    ∃ t behind, input = t :: behind ∧ t.kind = .leftBrace := by
  cases h with
  | braces opens h closes => exact ⟨_, _, rfl, opens⟩

theorem reads_branch {l k : Nat} {opening closing : Token Kind} {input mid behind rest : Tokens}
    {condition thenBody n : Node} {f : Node → Node → Parse σ Kind Node}
    (opens : opening.kind = .leftParen) (hinput : input ≠ [])
    (test : Reads (expression l : Parse σ Kind Node) l k input condition (closing :: mid))
    (closes : closing.kind = .rightParen) (hmid : mid ≠ [])
    (body : Reads (statement l : Parse σ Kind Node) l k mid thenBody behind)
    (more : Reads (f condition thenBody) l k behind n rest) :
    Reads (do
      let _ ← consume .leftParen
      let condition ← expression l
      let _ ← consume .rightParen
      let thenBody ← statement l
      f condition thenBody) l k (opening :: input) n rest := by
  refine (reads_consume_of_kind opens (by decide) hinput).bind ?_
  refine test.bind ?_
  refine (reads_consume_of_kind closes (by decide) hmid).bind ?_
  exact body.bind more

mutual

theorem Statement.reads {k : Nat} {input rest : Tokens} {n : Node} :
    Statement k input n rest → ∀ l, rest ≠ [] →
      Reads (statement l : Parse σ Kind Node) l k input n rest
  | .block h, l, hrest => by
    have hreads := fun l => h.reads l hrest
    obtain ⟨t, behind, rfl, hkind⟩ := h.opening
    refine reads_statement (fun l => ?_) l
    rw [hkind]
    exact hreads l
  | .inferred head h, l, hrest => by
    refine reads_statement (fun l => ?_) l
    rw [head]
    exact (reads_advance_of_kind head (by decide) (h.takes.ne_nil hrest)).bind
      (h.reads l hrest)
  | .call named opens arguments, l, hrest => by
    refine reads_statement (fun l => ?_) l
    rw [named.1]
    refine reads_get fun w hw => (named.reads (List.cons_ne_nil _ _)).bind ?_
    refine reads_get fun w' hw' => ?_
    simp only [hw', opens, Window.line, hw]
    refine (reads_consume_of_kind opens (by decide)
      (arguments.takes.ne_nil hrest)).bind ?_
    exact (arguments.reads l hrest).bind (reads_pure _ rest)
  | .assignment named assigns h, l, hrest => by
    refine reads_statement (fun l => ?_) l
    rw [named.1]
    refine reads_get fun w hw => (named.reads (List.cons_ne_nil _ _)).bind ?_
    refine reads_get fun w' hw' => ?_
    simp only [hw', assigns, Window.line, hw]
    refine (reads_advance_of_kind assigns (by decide) (h.takes.ne_nil hrest)).bind ?_
    exact (h.reads l hrest).bind (reads_pure _ rest)
  | .declaration named ahead h, l, hrest => by
    refine reads_statement (fun l => ?_) l
    rw [named.1]
    refine reads_get fun w hw => (named.reads (List.cons_ne_nil _ _)).bind ?_
    refine reads_get fun w' hw' => ?_
    simp only [hw', ahead, Window.line, hw]
    exact h.reads l hrest
  | .lone named ahead, l, hrest => by
    obtain ⟨u, behind, rfl⟩ := List.exists_cons_of_ne_nil hrest
    obtain ⟨hparen, hassign, hidentifier⟩ := ahead u rfl
    refine reads_statement (fun l => ?_) l
    rw [named.1]
    refine reads_get fun w hw => (named.reads hrest).bind ?_
    refine reads_get fun w' hw' => ?_
    simp only [hw', Window.line, hw]
    exact reads_pure _ _
  | .function head type_named named opens parameters h, l, hrest => by
    have hmid := h.takes.ne_nil hrest
    refine reads_statement (fun l => ?_) l
    rw [head]
    refine reads_get fun w hw => ?_
    simp only [Window.line, hw]
    refine (reads_consume_of_kind head (by decide) (List.cons_ne_nil _ _)).bind ?_
    refine (type_named.reads (List.cons_ne_nil _ _)).bind ?_
    refine (named.reads (List.cons_ne_nil _ _)).bind ?_
    refine (reads_consume_of_kind opens (by decide)
      (parameters.takes.ne_nil hmid)).bind ?_
    refine (parameters.reads hmid).bind ?_
    exact (h.reads l hrest).bind (reads_pure _ rest)
  | .typeOf head opens h closes, l, hrest => by
    refine reads_statement (fun l => ?_) l
    rw [head]
    refine (reads_advance_of_kind head (by decide) (List.cons_ne_nil _ _)).bind ?_
    refine (reads_consume_of_kind opens (by decide)
      (h.takes.ne_nil (List.cons_ne_nil _ _))).bind ?_
    refine (h.reads l (List.cons_ne_nil _ _)).bind ?_
    refine (reads_consume_of_kind closes (by decide) hrest).bind ?_
    exact reads_pure _ rest
  | .returning head h, l, hrest => by
    refine reads_statement (fun l => ?_) l
    rw [head]
    refine (reads_advance_of_kind head (by decide) (h.takes.ne_nil hrest)).bind ?_
    exact (h.reads l hrest).bind (reads_pure _ rest)
  | .branch head h, l, hrest => by
    refine reads_statement (fun l => ?_) l
    rw [head]
    exact (reads_advance_of_kind head (by decide) (h.takes.ne_nil hrest)).bind
      (h.reads l hrest)
  | .loop head times h, l, hrest => by
    have hmid := h.takes.ne_nil hrest
    refine reads_statement (fun l => ?_) l
    rw [head]
    refine (reads_advance_of_kind head (by decide) (times.takes.ne_nil hmid)).bind ?_
    refine (times.reads l hmid).bind ?_
    exact (h.reads l hrest).bind (reads_pure _ rest)
  | .print head h, l, hrest => by
    refine reads_statement (fun l => ?_) l
    rw [head]
    refine (reads_advance_of_kind head (by decide) (h.takes.ne_nil hrest)).bind ?_
    exact (h.reads l hrest).bind (reads_pure _ rest)
  | .expression head h, l, hrest => by
    refine reads_statement (fun l => ?_) l
    rw [ruleFor_of_startsExpression head]
    exact h.reads l hrest
  | .empty ahead, l, hrest => by
    refine reads_statement (fun l => ?_) l
    rw [ruleFor_of_not_startsStatement ahead]
    exact reads_pure _ _

theorem Branch.reads {k line : Nat} {input rest : Tokens} {n : Node} :
    Branch k line input n rest → ∀ l, rest ≠ [] →
      Reads (branch l line : Parse σ Kind Node) l k input n rest
  | .single opens test closes h ahead, l, hrest => by
    have hthen := h.reads l hrest
    obtain ⟨t, behind, rfl⟩ := List.exists_cons_of_ne_nil hrest
    rw [branch]
    refine reads_branch opens (test.takes.ne_nil (List.cons_ne_nil _ _))
      (test.reads l (List.cons_ne_nil _ _)) closes (h.takes.ne_nil hrest) hthen ?_
    refine reads_isAt ?_
    rw [beq_eq_false_iff_ne.mpr (ahead t rfl)]
    exact reads_pure _ _
  | .otherwise opens test closes h splits ahead h', l, hrest => by
    rw [branch]
    refine reads_branch opens (test.takes.ne_nil (List.cons_ne_nil _ _))
      (test.reads l (List.cons_ne_nil _ _)) closes (h.takes.ne_nil (List.cons_ne_nil _ _))
      (h.reads l (List.cons_ne_nil _ _)) ?_
    refine reads_isAt ?_
    rw [splits, beq_self_eq_true, if_pos rfl]
    refine (reads_advance_of_kind splits (by decide) (List.cons_ne_nil _ _)).bind ?_
    refine reads_get fun w hw => reads_isAt ?_
    rw [beq_eq_false_iff_ne.mpr ahead]
    exact (h'.reads l hrest).bind (reads_pure _ rest)
  | .chained opens test closes h splits again h', l, hrest => by
    rw [branch]
    refine reads_branch opens (test.takes.ne_nil (List.cons_ne_nil _ _))
      (test.reads l (List.cons_ne_nil _ _)) closes (h.takes.ne_nil (List.cons_ne_nil _ _))
      (h.reads l (List.cons_ne_nil _ _)) ?_
    refine reads_isAt ?_
    rw [splits, beq_self_eq_true, if_pos rfl]
    refine (reads_advance_of_kind splits (by decide) (List.cons_ne_nil _ _)).bind ?_
    refine reads_get fun w hw => reads_isAt ?_
    rw [again, beq_self_eq_true, if_pos rfl]
    refine (reads_advance_of_kind again (by decide) (h'.takes.ne_nil hrest)).bind ?_
    cases l with
    | zero => exact reads_tooDeep (Nat.succ_pos _) _ _ rest
    | succ l =>
      simp only [Window.line, hw]
      exact (h'.reads l hrest).nested.bind (reads_pure _ rest)

theorem Block.reads {k : Nat} {input rest : Tokens} {n : Node} :
    Block k input n rest → ∀ l, rest ≠ [] →
      Reads (block (statement l) : Parse σ Kind Node) l k input n rest
  | .braces opens h closes, l, hrest => by
    refine reads_get fun w hw => ?_
    simp only [Window.line, hw]
    refine (reads_consume_of_kind opens (by decide)
      (h.takes.ne_nil (List.cons_ne_nil _ _))).bind ?_
    refine (h.reads l [] (by decide) (List.cons_ne_nil _ _)).bind ?_
    refine (reads_consume_of_kind closes (by decide) hrest).bind ?_
    exact reads_pure _ rest

theorem Body.reads {k : Nat} {returnType : String} {input rest : Tokens} {n : Node} :
    Body k returnType input n rest → ∀ l, rest ≠ [] →
      Reads (functionBody (expression l) (statement l) returnType : Parse σ Kind Node) l k input n
        rest
  | .block h, l, hrest => by
    have hreads := h.reads l hrest
    obtain ⟨t, behind, rfl, hkind⟩ := h.opening
    refine reads_get fun w hw => ?_
    rw [Window.isAt, hw, hkind, beq_self_eq_true, if_pos rfl]
    exact hreads
  | .expression result ahead h, l, hrest => by
    refine reads_get fun w hw => ?_
    simp only [Window.isAt, Window.line, hw, beq_eq_false_iff_ne.mpr ahead.1,
      beq_eq_false_iff_ne.mpr ahead.2, Bool.false_eq_true, ↓reduceIte, result, ne_eq,
      not_false_eq_true, decide_true, Bool.not_false, Bool.and_self]
    exact (h.reads l hrest).bind (reads_pure _ rest)
  | .statement result ahead h, l, hrest => by
    refine reads_get fun w hw => ?_
    have hresult : (decide (returnType ≠ "void") && !w.isAt .return) = false := by
      rcases result with hvoid | hreturn
      · simp [hvoid]
      · simp [Window.isAt, hw, hreturn]
    have hbrace : w.isAt .leftBrace = false := by
      rw [Window.isAt, hw]
      exact beq_eq_false_iff_ne.mpr ahead
    simp only [hbrace, hresult, Bool.false_eq_true, ↓reduceIte, Window.line, hw]
    exact (h.reads l hrest).bind (reads_pure _ rest)

theorem Statements.reads {k : Nat} {closing : Kind} {input rest : Tokens} {nodes : List Node} :
    Statements k closing input nodes rest → ∀ l done, closing ≠ .semicolon → rest ≠ [] →
      Reads (iterate (statementsStep (statement l : Parse σ Kind Node) closing) done) l k input
        (done.reverse ++ nodes) rest
  | .done closes, l, done, hclosing, hrest => by
    refine (reads_isAt ?_).last
    rw [closes, beq_eq_false_iff_ne.mpr hclosing]
    refine reads_isAt ?_
    rw [closes, beq_self_eq_true, if_pos rfl, List.append_nil]
    exact reads_pure _ _
  | .semicolon separates more, l, done, hclosing, hrest => by
    have hinput := more.takes.ne_nil hrest
    exact (reads_statementsStep_semicolon done separates hinput).again (Nat.lt_succ_self _)
      (more.reads l done hclosing hrest)
  | .statement head first separated more, l, done, hclosing, hrest => by
    refine (reads_statementsStep_statement done head (first.reads l (List.cons_ne_nil _ _))
      separated).again ?_ ?_
    · rcases first.length_lt_or with hlt | ⟨hsame, hnoOp⟩
      · exact hlt
      · -- A statement that took nothing would stand at a semicolon or at the closing token.
        cases hsame
        rcases separated with hsemicolon | hcloses | ⟨hnoOp', _⟩
        · exact absurd hsemicolon head.1
        · exact absurd hcloses head.2
        · rw [hnoOp] at hnoOp'
          cases hnoOp'
    · rw [List.append_cons, ← List.reverse_cons]
      exact more.reads l (_ :: done) hclosing hrest

end

/-- The end of the text can be taken, as the source gives one more token behind it. -/
theorem consume_end {w : Window σ Kind} {t : Token Kind} (hw : w.Faces [t])
    (ht : t.kind = .endOfText) : ∃ w', consume .endOfText w = .ok t w' := by
  have hat : w.isAt .endOfText = true := by
    rw [Window.isAt, hw.current, ht]
    rfl
  obtain ⟨behind, heq, hstreams⟩ := hw
  cases heq
  cases hstreams with
  | @nil _ after u hnext =>
    refine ⟨⟨after, u, some w.current.kind, w.depth⟩, ?_⟩
    rw [consume, if_pos hat, advance, hnext]

/-- A source whose tokens derive a tree is parsed as that tree, or refused as too deep. It is not
refused if the derivation keeps to the limit. -/
theorem Unit.parseFrom_eq {k : Nat} {input : Tokens} {tree : Node} (h : Unit k input tree)
    {source : σ} (hsource : Streams source input) :
    parseFrom source = .ok tree ∨
      nestingLimit < k ∧ ∃ line, parseFrom source = .error (.nestingTooDeep nestingLimit line) := by
  cases h with
  | @statements t last behind nodes h =>
    obtain ⟨_, _, hlast, hclosing⟩ := h.closing
    cases hlast
    cases hsource with
    | @cons _ after _ _ hnext hnearer hmore =>
      have hw : (⟨after, t, none, 0⟩ : Window σ Kind).Faces (t :: behind) := ⟨behind, rfl, hmore⟩
      have hreads : Reads
          (Grammar.statements (statement nestingLimit : Parse σ Kind Node) .endOfText)
          nestingLimit k (t :: behind) nodes [last] :=
        h.reads nestingLimit [] (by decide) (List.cons_ne_nil _ _)
      rcases hreads hw (by simp) with ⟨w₁, hok, hreadsTo⟩ | ⟨hlt, line, w₁, herror⟩
      · obtain ⟨w', hconsume⟩ := consume_end hreadsTo.faces hclosing
        left
        apply parseFrom_of_ok hnext
        rw [unit, get_bind, bind_of_ok hok, bind_of_ok hconsume]
        rfl
      · right
        refine ⟨hlt, line, ?_⟩
        apply parseFrom_of_error hnext
        rw [unit, get_bind, bind_of_error herror]

end ConsoleScript.Derivation
