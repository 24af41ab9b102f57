import ConsoleScript.Proofs.Printing.Lexing
import ConsoleScript.Proofs.Syntax.Derivation

/-!
# Printed expressions are derived

The tokens of a printed expression derive its tree. A chain is printed from its innermost fold
outwards but derived from its first operand on, so what is proved of an expression in a chain is
that whatever goes on behind it can be put behind its words.

`levels` is the number of levels of nesting that the derivation goes down.
-/

namespace ConsoleScript.Printing

open ConsoleScript.Derivation Grammar

/-! ### The levels of an expression -/

/-- The number of folds of the tier that an expression in a chain of the tier ends with. -/
def Expr.folds (tier : Tier) : Expr → Nat
  | .binary left op _ =>
    match tier, tierOf op with
    | .sum, .sum | .product, .product => left.folds tier + 1
    | _, _ => 0
  | _ => 0

mutual

def Expr.levels (place : Place) : Expr → Nat
  | .constant _ | .variable _ => 0
  | .call _ args => argumentLevels args
  | .negation operand => operand.levels .unary + 1
  | .binary left op right =>
    let free := max (left.levels (leftPlace (tierOf op)))
      (left.folds (tierOf op) + 1 + right.levels (rightPlace (tierOf op)))
    if place.admits (tierOf op) then free else free + 1

def argumentLevels : List Expr → Nat
  | [] => 0
  | e :: es => max (e.levels .sum + 1) (argumentLevels es)

end

theorem Expr.folds_le_levels (tier : Tier) (e : Expr) :
    e.folds tier ≤ e.levels (leftPlace tier) := by
  cases e with
  | binary left op right =>
    cases tier <;> cases op <;>
      simp only [folds, levels, tierOf, leftPlace, Place.admits, if_true, Nat.zero_le] <;> omega
  | _ => exact Nat.zero_le _

/-! ### Tokens of words -/

theorem Spells.cons_inv {ts : Tokens} {w : Word} {words : List Word} (h : Spells ts (w :: words)) :
    ∃ t ts', ts = t :: ts' ∧ t.unlined = w.token 0 ∧ Spells ts' words := by
  obtain ⟨t, ts', rfl, ht, hts⟩ := List.map_eq_cons_iff.mp h
  exact ⟨t, ts', rfl, ht, hts⟩

theorem Spells.append_inv {ts : Tokens} {words words' : List Word}
    (h : Spells ts (words ++ words')) :
    ∃ a b, ts = a ++ b ∧ Spells a words ∧ Spells b words' := by
  rw [Spells, List.map_append] at h
  obtain ⟨a, b, rfl, ha, hb⟩ := List.map_eq_append_iff.mp h
  exact ⟨a, b, rfl, ha, hb⟩

theorem Spells.nil_inv {ts : Tokens} (h : Spells ts []) : ts = [] :=
  List.map_eq_nil_iff.mp h

theorem kind_of_mark {t : Token Kind} {m : Mark} (h : t.unlined = (Word.mark m).token 0) :
    t.kind = m.kind :=
  congrArg Token.kind h

theorem named_of_name {t : Token Kind} {n : Name} (h : t.unlined = (Word.name n).token 0) :
    Named t n.text :=
  ⟨congrArg Token.kind h, congrArg Token.value h⟩

theorem literal?_of_constant {t : Token Kind} {k : Constant}
    (h : t.unlined = (Word.constant k).token 0) : literal? t = some k.value := by
  have hkind : t.kind = k.kind := congrArg Token.kind h
  have hvalue : t.value = k.literal? := congrArg Token.value h
  cases k with
  | bool b => cases b <;> simp [literal?, hkind, Constant.kind, Constant.value]
  | _ => simp [literal?, hkind, hvalue, Constant.kind, Constant.literal?, Constant.value]

theorem Spells.mark_cons_inv {ts : Tokens} {m : Mark} {words : List Word}
    (h : Spells ts (.mark m :: words)) :
    ∃ t ts', ts = t :: ts' ∧ t.kind = m.kind ∧ Spells ts' words := by
  obtain ⟨t, ts', rfl, ht, hts⟩ := h.cons_inv
  exact ⟨t, ts', rfl, kind_of_mark ht, hts⟩

theorem Spells.name_cons_inv {ts : Tokens} {n : Name} {words : List Word}
    (h : Spells ts (.name n :: words)) :
    ∃ t ts', ts = t :: ts' ∧ Named t n.text ∧ Spells ts' words := by
  obtain ⟨t, ts', rfl, ht, hts⟩ := h.cons_inv
  exact ⟨t, ts', rfl, named_of_name ht, hts⟩

theorem Spells.inParens_inv {ts : Tokens} {words : List Word} (h : Spells ts (inParens words)) :
    ∃ opening inner closing, ts = opening :: (inner ++ [closing]) ∧ opening.kind = .leftParen ∧
      Spells inner words ∧ closing.kind = .rightParen := by
  obtain ⟨opening, behind, rfl, hopens, h⟩ := h.mark_cons_inv
  obtain ⟨inner, last, rfl, hinner, h⟩ := h.append_inv
  obtain ⟨closing, ts, rfl, hcloses, h⟩ := h.mark_cons_inv
  cases h.nil_inv
  exact ⟨opening, inner, closing, rfl, hopens, hinner, hcloses⟩

/-! ### What is proved of an expression -/

/-- What may stand behind an operand of the tier. -/
def Behind : Tier → Kind → Prop
  | .sum, kind => kind ≠ .leftParen ∧ Tier.product.operator? kind = none
  | .product, kind => kind ≠ .leftParen

def Ends (kind : Kind) : Prop :=
  kind ≠ .leftParen ∧ Tier.sum.operator? kind = none ∧ Tier.product.operator? kind = none

theorem ahead_of_kind {p : Kind → Prop} {t : Token Kind} {rest : Tokens} {kind : Kind}
    (ht : t.kind = kind) (h : p kind) : Ahead p (t :: rest) := by
  rintro u hu
  cases hu
  exact ht ▸ h

theorem exists_succ_of_le {k l : Nat} (h : k + 1 ≤ l) : ∃ m, l = m + 1 ∧ k ≤ m :=
  ⟨l - 1, by omega, by omega⟩

def UnaryDerived (e : Expr) : Prop :=
  ∀ ts, Spells ts (e.words .unary) → ∃ n, n.unlined = e.toNode ∧
    ∀ l, e.levels .unary ≤ l → ∀ rest, Ahead (· ≠ .leftParen) rest → Unary l (ts ++ rest) n rest

def OperandDerived (tier : Tier) (e : Expr) : Prop :=
  ∀ ts, Spells ts (e.words (rightPlace tier)) → ∃ n, n.unlined = e.toNode ∧
    ∀ l, e.levels (rightPlace tier) ≤ l → ∀ rest, Ahead (Behind tier) rest →
      Operand tier l (ts ++ rest) n rest

/-- Whatever folds go on behind the expression, they make a chain with it. -/
def ChainDerived (tier : Tier) (e : Expr) : Prop :=
  ∀ ts, Spells ts (e.words (leftPlace tier)) → ∃ n, n.unlined = e.toNode ∧
    ∀ l m, e.levels (leftPlace tier) ≤ l → m + e.folds tier = l →
      ∀ mid final rest, Ahead (Behind tier) mid → Folds tier m n mid final rest →
        Chain tier l (ts ++ mid) final rest

def ExpressionDerived (e : Expr) : Prop :=
  ∀ ts, Spells ts (e.words .sum) → ∃ n, n.unlined = e.toNode ∧
    ∀ l, e.levels .sum + 1 ≤ l → ∀ rest, Ahead Ends rest → Expression l (ts ++ rest) n rest

theorem UnaryDerived.operand {e : Expr} (h : UnaryDerived e) : OperandDerived .product e := by
  intro ts hts
  obtain ⟨n, hn, hunary⟩ := h ts hts
  exact ⟨n, hn, fun l hl rest hrest => .unary (hunary l hl rest hrest)⟩

theorem ChainDerived.operand {e : Expr} (h : ChainDerived .product e) : OperandDerived .sum e := by
  intro ts hts
  obtain ⟨n, hn, hchain⟩ := h ts hts
  refine ⟨n, hn, fun l hl rest hrest => .product ?_⟩
  have hfolds := e.folds_le_levels .product
  have hle : e.folds .product ≤ l := Nat.le_trans hfolds hl
  exact hchain l (l - e.folds .product) hl (Nat.sub_add_cancel hle) rest n rest
    (fun t ht => (hrest t ht).1) (.stop fun t ht => (hrest t ht).2)

theorem ChainDerived.expression {e : Expr} (h : ChainDerived .sum e) : ExpressionDerived e := by
  intro ts hts
  obtain ⟨n, hn, hchain⟩ := h ts hts
  refine ⟨n, hn, fun l hl rest hrest => ?_⟩
  obtain ⟨m, rfl, hm⟩ := exists_succ_of_le hl
  have hle : e.folds .sum ≤ m := Nat.le_trans (e.folds_le_levels .sum) hm
  exact .sum (hchain m (m - e.folds .sum) hm (Nat.sub_add_cancel hle) rest n rest
    (fun t ht => ⟨(hrest t ht).1, (hrest t ht).2.2⟩) (.stop fun t ht => (hrest t ht).2.1))

/-- An expression that is no chain of the tier itself is the first operand of one. -/
theorem OperandDerived.chain {tier : Tier} {e : Expr} (h : OperandDerived tier e)
    (hwords : e.words (leftPlace tier) = e.words (rightPlace tier))
    (hlevels : e.levels (leftPlace tier) = e.levels (rightPlace tier))
    (hfolds : e.folds tier = 0) : ChainDerived tier e := by
  intro ts hts
  rw [hwords] at hts
  obtain ⟨n, hn, hoperand⟩ := h ts hts
  refine ⟨n, hn, fun l m hl hm mid final rest hmid hmore => ?_⟩
  rw [hfolds, Nat.add_zero] at hm
  subst hm
  rw [hlevels] at hl
  exact .operands (hoperand m hl mid hmid) hmore

theorem operator?_ofOperator (op : BinaryOperator) :
    (tierOf op).operator? (Mark.ofOperator op).kind = some op := by
  cases op <;> rfl

theorem behind_ofOperator (op : BinaryOperator) :
    Behind (tierOf op) (Mark.ofOperator op).kind := by
  cases op <;> simp [Behind, tierOf, Mark.ofOperator, Mark.kind, Tier.operator?]

theorem ChainDerived.binary {left right : Expr} {op : BinaryOperator}
    (hleft : ChainDerived (tierOf op) left) (hright : OperandDerived (tierOf op) right) :
    ChainDerived (tierOf op) (.binary left op right) := by
  intro ts hts
  have hwords : (Expr.binary left op right).words (leftPlace (tierOf op)) =
      left.words (leftPlace (tierOf op)) ++
        .mark (.ofOperator op) :: right.words (rightPlace (tierOf op)) := by
    cases op <;> simp [Expr.words, leftPlace, tierOf, Place.admits]
  have hlevels : (Expr.binary left op right).levels (leftPlace (tierOf op)) =
      max (left.levels (leftPlace (tierOf op)))
        (left.folds (tierOf op) + 1 + right.levels (rightPlace (tierOf op))) := by
    cases op <;> simp [Expr.levels, leftPlace, tierOf, Place.admits]
  have hfolds : (Expr.binary left op right).folds (tierOf op) = left.folds (tierOf op) + 1 := by
    cases op <;> rfl
  rw [hwords] at hts
  obtain ⟨a, b, rfl, ha, hb⟩ := hts.append_inv
  obtain ⟨t, b, rfl, ht, hb⟩ := hb.mark_cons_inv
  obtain ⟨n, hn, hchain⟩ := hleft a ha
  obtain ⟨n', hn', hoperand⟩ := hright b hb
  refine ⟨.binary n op n' t.line, by simp [Node.unlined, Expr.toNode, hn, hn'], ?_⟩
  intro l m hl hm mid final rest hmid hmore
  rw [hlevels] at hl
  rw [hfolds] at hm
  have hl' := Nat.max_le.mp hl
  have hfold : Folds (tierOf op) (m + 1) n (t :: (b ++ mid)) final rest := by
    refine .fold ?_ (hoperand m (by omega) mid hmid) hmore
    rw [ht]
    exact operator?_ofOperator op
  -- For the left operand the new fold is the first of those that go on behind it.
  rw [List.append_assoc, List.cons_append]
  exact hchain l (m + 1) hl'.1 (by omega) _ final rest (ahead_of_kind ht (behind_ofOperator op))
    hfold

theorem ExpressionDerived.parens {e : Expr} (h : ExpressionDerived e)
    (hwords : e.words .unary = inParens (e.words .sum))
    (hlevels : e.levels .unary = e.levels .sum + 1) : UnaryDerived e := by
  intro ts hts
  rw [hwords] at hts
  obtain ⟨opening, inner, closing, rfl, hopens, hinner, hcloses⟩ := hts.inParens_inv
  obtain ⟨n, hn, hexpression⟩ := h inner hinner
  refine ⟨n, hn, fun l hl rest hrest => .primary ?_⟩
  rw [hlevels] at hl
  rw [List.cons_append, List.append_assoc]
  have hends : Ahead Ends (closing :: rest) := ahead_of_kind hcloses ⟨by decide, rfl, rfl⟩
  exact .parens hopens (hexpression l hl (closing :: rest) hends) hcloses

structure Derived (e : Expr) : Prop where
  unary : UnaryDerived e
  chain (tier : Tier) : ChainDerived tier e

theorem Derived.operand {e : Expr} (h : Derived e) : (tier : Tier) → OperandDerived tier e
  | .sum => (h.chain .product).operand
  | .product => h.unary.operand

theorem Derived.expression {e : Expr} (h : Derived e) : ExpressionDerived e :=
  (h.chain .sum).expression

/-- An expression without an operator on top is the same in every place. -/
theorem UnaryDerived.derived {e : Expr} (h : UnaryDerived e)
    (hwords : ∀ place, e.words place = e.words .unary)
    (hlevels : ∀ place, e.levels place = e.levels .unary)
    (hfolds : ∀ tier, e.folds tier = 0) : Derived e := by
  have hproduct : ChainDerived .product e := h.operand.chain (hwords _) (hlevels _) (hfolds _)
  refine ⟨h, fun tier => ?_⟩
  cases tier with
  | product => exact hproduct
  | sum =>
    refine hproduct.operand.chain ?_ ?_ (hfolds _)
    · rw [hwords, ← hwords]
    · rw [hlevels, ← hlevels]

theorem Derived.binary {left right : Expr} (hleft : Derived left) (hright : Derived right)
    (op : BinaryOperator) : Derived (.binary left op right) := by
  have hchain := ChainDerived.binary (hleft.chain (tierOf op)) (hright.operand (tierOf op))
  cases htier : tierOf op with
  | sum =>
    -- Free in a sum; anywhere else its parentheses make it an operand.
    rw [htier] at hchain
    have hunary := hchain.expression.parens
      (by simp [Expr.words, htier, Place.admits]) (by simp [Expr.levels, htier, Place.admits])
    have hproduct : ChainDerived .product (.binary left op right) :=
      hunary.operand.chain (by simp [Expr.words, leftPlace, rightPlace, htier, Place.admits])
        (by simp [Expr.levels, leftPlace, rightPlace, htier, Place.admits])
        (by simp [Expr.folds, htier])
    refine ⟨hunary, fun tier => ?_⟩
    cases tier with
    | sum => exact hchain
    | product => exact hproduct
  | product =>
    -- Free in a product and so, as an operand, in a sum.
    rw [htier] at hchain
    have hsum : ChainDerived .sum (.binary left op right) :=
      hchain.operand.chain (by simp [Expr.words, leftPlace, rightPlace, htier, Place.admits])
        (by simp [Expr.levels, leftPlace, rightPlace, htier, Place.admits])
        (by simp [Expr.folds, htier])
    refine ⟨hsum.expression.parens (by simp [Expr.words, htier, Place.admits])
      (by simp [Expr.levels, htier, Place.admits]), fun tier => ?_⟩
    cases tier with
    | sum => exact hsum
    | product => exact hchain

/-! ### Arguments -/

theorem argumentList_derived {e : Expr} {es : List Expr} (h : ∀ x ∈ e :: es, ExpressionDerived x)
    {ts : Tokens} (hts : Spells ts (separated .comma (argumentWords (e :: es)))) :
    ∃ nodes, unlinedNodes nodes = argumentNodes (e :: es) ∧
      ∀ l, argumentLevels (e :: es) ≤ l → ∀ closing rest, closing.kind = .rightParen →
        ArgumentList l (ts ++ closing :: rest) nodes rest := by
  induction es generalizing e ts with
  | nil =>
    obtain ⟨n, hn, hexpression⟩ := h e List.mem_cons_self ts hts
    refine ⟨[n], by simp [unlinedNodes, argumentNodes, hn], ?_⟩
    intro l hl closing rest hcloses
    have hl' := (Nat.max_le.mp hl).1
    exact .last (hexpression l hl' _ (ahead_of_kind hcloses ⟨by decide, rfl, rfl⟩)) hcloses
  | cons e' es ih =>
    have hts : Spells ts (e.words .sum ++
        .mark .comma :: separated .comma (argumentWords (e' :: es))) := hts
    obtain ⟨a, b, rfl, ha, hb⟩ := hts.append_inv
    obtain ⟨comma, b, rfl, hcomma, hb⟩ := hb.mark_cons_inv
    obtain ⟨n, hn, hexpression⟩ := h e List.mem_cons_self a ha
    obtain ⟨nodes, hnodes, hothers⟩ := ih (fun x hx => h x (List.mem_cons_of_mem _ hx)) hb
    refine ⟨n :: nodes, by simp [unlinedNodes, argumentNodes, hn, hnodes] , ?_⟩
    intro l hl closing rest hcloses
    have hl' := Nat.max_le.mp hl
    rw [List.append_assoc, List.cons_append]
    exact .more (hexpression l hl'.1 _ (ahead_of_kind hcomma ⟨by decide, rfl, rfl⟩)) hcomma
      (hothers l hl'.2 closing rest hcloses)

theorem arguments_derived {args : List Expr} (h : ∀ x ∈ args, ExpressionDerived x) {ts : Tokens}
    (hts : Spells ts (separated .comma (argumentWords args))) :
    ∃ nodes, unlinedNodes nodes = argumentNodes args ∧
      ∀ l, argumentLevels args ≤ l → ∀ closing rest, closing.kind = .rightParen →
        Arguments l (ts ++ closing :: rest) nodes rest := by
  cases args with
  | nil =>
    cases hts.nil_inv
    exact ⟨[], rfl, fun l _ closing rest hcloses => .none hcloses⟩
  | cons e es =>
    obtain ⟨nodes, hnodes, hlist⟩ := argumentList_derived h hts
    exact ⟨nodes, hnodes, fun l hl closing rest hcloses => .some (hlist l hl closing rest hcloses)⟩

/-! ### All expressions -/

theorem constant_derived (k : Constant) : Derived (.constant k) := by
  refine UnaryDerived.derived (fun ts hts => ?_) (fun _ => rfl) (fun _ => rfl) (fun _ => rfl)
  obtain ⟨t, ts', rfl, ht, hts'⟩ := hts.cons_inv
  cases hts'.nil_inv
  exact ⟨.literal k.value t.line, rfl,
    fun l _ rest _ => .primary (.literal (literal?_of_constant ht))⟩

theorem variable_derived (name : Name) : Derived (.variable name) := by
  refine UnaryDerived.derived (fun ts hts => ?_) (fun _ => rfl) (fun _ => rfl) (fun _ => rfl)
  obtain ⟨t, ts', rfl, hnamed, hts'⟩ := hts.name_cons_inv
  cases hts'.nil_inv
  exact ⟨.variable name.text t.line, rfl, fun l _ rest hrest => .primary (.variable hnamed hrest)⟩

theorem call_derived (f : Name) {args : List Expr} (h : ∀ x ∈ args, ExpressionDerived x) :
    Derived (.call f args) := by
  refine UnaryDerived.derived (fun ts hts => ?_) (fun _ => rfl) (fun _ => rfl) (fun _ => rfl)
  obtain ⟨t, ts, rfl, hnamed, hts⟩ := hts.name_cons_inv
  obtain ⟨opening, inner, closing, rfl, hopens, hinner, hcloses⟩ := hts.inParens_inv
  obtain ⟨nodes, hnodes, harguments⟩ := arguments_derived h hinner
  refine ⟨.call f.text nodes t.line, by simp [Node.unlined, Expr.toNode, hnodes], ?_⟩
  intro l hl rest _
  have hall := harguments l hl closing rest hcloses
  rw [List.cons_append, List.cons_append, List.append_assoc]
  exact .primary (.call hnamed hopens hall)

theorem negation_derived {e : Expr} (h : Derived e) : Derived (.negation e) := by
  refine UnaryDerived.derived (fun ts hts => ?_) (fun _ => rfl) (fun _ => rfl) (fun _ => rfl)
  obtain ⟨t, ts, rfl, hminus, hts⟩ := hts.mark_cons_inv
  obtain ⟨n, hn, hunary⟩ := h.unary ts hts
  refine ⟨.negation n t.line, by simp [Node.unlined, Expr.toNode, hn], ?_⟩
  intro l hl rest hrest
  obtain ⟨m, rfl, hm⟩ := exists_succ_of_le hl
  exact .negation hminus (hunary m hm rest hrest)

mutual

theorem Expr.derived : (e : Expr) → Derived e
  | .constant k => constant_derived k
  | .variable name => variable_derived name
  | .call f args => call_derived f fun x hx => (argumentsDerived args x hx).expression
  | .negation operand => negation_derived operand.derived
  | .binary left op right => left.derived.binary right.derived op

theorem argumentsDerived : (args : List Expr) → ∀ x ∈ args, Derived x
  | [], _, hx => by cases hx
  | e :: es, x, hx => by
    rcases List.mem_cons.mp hx with heq | hx
    · exact heq ▸ e.derived
    · exact argumentsDerived es x hx

end

end ConsoleScript.Printing
