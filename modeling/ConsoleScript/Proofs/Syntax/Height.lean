import ConsoleScript.Proofs.Syntax.Derivation

/-!
# The height of parsed expressions

A fold of a chain counts as a level of nesting only while the chain goes on, and the levels that its
first operand went down are free again by then. So an expression is not bounded in height by the
levels of its derivation but by their square.
-/

namespace ConsoleScript

mutual

/-- The number of nodes on the longest path from the root of a tree to a leaf. -/
def Node.height : Node → Nat
  | .literal _ _ | .variable _ _ | .noOp _ => 1
  | .negation expr _ | .print expr _ | .typeOf expr _ | .returning expr _ => expr.height + 1
  | .binary left _ right _ => max left.height right.height + 1
  | .assignment target value _ => max target.height value.height + 1
  | .declaration _ _ initializer _ => heightOption initializer + 1
  | .block nodes _ | .call _ nodes _ => heightNodes nodes + 1
  | .branch condition thenBody elseBody _ =>
    max condition.height (max thenBody.height (heightOption elseBody)) + 1
  | .loop count body _ => max count.height body.height + 1
  | .function _ _ _ body _ => body.height + 1

def heightOption : Option Node → Nat
  | none => 0
  | some n => n.height

def heightNodes : List Node → Nat
  | [] => 0
  | n :: ns => max n.height (heightNodes ns)

end

mutual

/-- The expressions in a tree, from those that stand in its statements to their last operands and
arguments. -/
def Node.expressions : Node → List Node
  | .literal value line => [.literal value line]
  | .variable name line => [.variable name line]
  | .negation operand line => .negation operand line :: operand.expressions
  | .binary left op right line =>
    .binary left op right line :: (left.expressions ++ right.expressions)
  | .call name args line => .call name args line :: expressionsNodes args
  | .assignment target value _ => target.expressions ++ value.expressions
  | .declaration _ _ initializer _ => expressionsOption initializer
  | .block statements _ => expressionsNodes statements
  | .branch condition thenBody elseBody _ =>
    condition.expressions ++ thenBody.expressions ++ expressionsOption elseBody
  | .loop count body _ => count.expressions ++ body.expressions
  | .print expr _ | .typeOf expr _ | .returning expr _ => expr.expressions
  | .function _ _ _ body _ => body.expressions
  | .noOp _ => []

def expressionsOption : Option Node → List Node
  | none => []
  | some n => n.expressions

def expressionsNodes : List Node → List Node
  | [] => []
  | n :: ns => n.expressions ++ expressionsNodes ns

end

namespace Node

/-- No expression in the tree is higher than the bound. -/
def Bounded (b : Nat) (n : Node) : Prop :=
  ∀ e ∈ n.expressions, e.height ≤ b

/-- Neither the tree nor an expression in it is higher than the bound. -/
structure Within (b : Nat) (n : Node) : Prop where
  height_le : n.height ≤ b
  bounded : n.Bounded b

variable {b b' line : Nat}

theorem Bounded.mono {n : Node} (h : n.Bounded b) (hb : b ≤ b') : n.Bounded b' :=
  fun e he => Nat.le_trans (h e he) hb

theorem Within.mono {n : Node} (h : n.Within b) (hb : b ≤ b') : n.Within b' :=
  ⟨Nat.le_trans h.height_le hb, h.bounded.mono hb⟩

theorem Within.literal (value : Value) (hb : 1 ≤ b) : (Node.literal value line).Within b :=
  ⟨hb, List.forall_mem_singleton.mpr hb⟩

theorem Within.variable (name : String) (hb : 1 ≤ b) : (Node.variable name line).Within b :=
  ⟨hb, List.forall_mem_singleton.mpr hb⟩

theorem Within.negation {n : Node} (h : n.Within b) : (Node.negation n line).Within (b + 1) := by
  have hheight : (Node.negation n line).height ≤ b + 1 := Nat.succ_le_succ h.height_le
  exact ⟨hheight, List.forall_mem_cons.mpr ⟨hheight, h.bounded.mono (Nat.le_succ b)⟩⟩

theorem Within.binary {left right : Node} {op : BinaryOperator} (hleft : left.Within b)
    (hright : right.Within b) : (Node.binary left op right line).Within (b + 1) := by
  have hheight : (Node.binary left op right line).height ≤ b + 1 :=
    Nat.succ_le_succ (Nat.max_le.mpr ⟨hleft.height_le, hright.height_le⟩)
  refine ⟨hheight, List.forall_mem_cons.mpr ⟨hheight, List.forall_mem_append.mpr ⟨?_, ?_⟩⟩⟩
  · exact hleft.bounded.mono (Nat.le_succ b)
  · exact hright.bounded.mono (Nat.le_succ b)

theorem bounded_nodes {nodes : List Node} (h : ∀ n ∈ nodes, n.Bounded b) :
    ∀ e ∈ expressionsNodes nodes, e.height ≤ b := by
  induction nodes with
  | nil => exact List.forall_mem_nil _
  | cons n nodes ih =>
    obtain ⟨hn, hnodes⟩ := List.forall_mem_cons.mp h
    exact List.forall_mem_append.mpr ⟨hn, ih hnodes⟩

theorem bounded_branch {condition thenBody : Node} {elseBody : Option Node}
    (hcondition : condition.Bounded b) (hthen : thenBody.Bounded b)
    (helse : ∀ e ∈ expressionsOption elseBody, e.height ≤ b) :
    (Node.branch condition thenBody elseBody line).Bounded b :=
  List.forall_mem_append.mpr ⟨List.forall_mem_append.mpr ⟨hcondition, hthen⟩, helse⟩

theorem heightNodes_le {nodes : List Node} (h : ∀ n ∈ nodes, n.Within b) :
    heightNodes nodes ≤ b := by
  induction nodes with
  | nil => exact Nat.zero_le b
  | cons n nodes ih =>
    obtain ⟨hn, hnodes⟩ := List.forall_mem_cons.mp h
    exact Nat.max_le.mpr ⟨hn.height_le, ih hnodes⟩

theorem Within.call (name : String) {args : List Node} (h : ∀ a ∈ args, a.Within b) :
    (Node.call name args line).Within (b + 1) := by
  have hheight : (Node.call name args line).height ≤ b + 1 := Nat.succ_le_succ (heightNodes_le h)
  refine ⟨hheight, List.forall_mem_cons.mpr ⟨hheight, bounded_nodes fun a ha => ?_⟩⟩
  exact (h a ha).bounded.mono (Nat.le_succ b)

end Node

namespace Derivation

open Grammar (Tier)

/-- How high an operand of the tier can be that is derived with this many levels. -/
def operandHeight : Tier → Nat → Nat
  | .sum, l => l * l + l + 1
  | .product, l => l * l + 1

theorem succ_mul_self (l : Nat) : (l + 1) * (l + 1) = l * l + l + 1 + l := by
  rw [Nat.succ_mul, Nat.mul_succ]
  omega

theorem operandHeight_le_succ (tier : Tier) (l : Nat) :
    operandHeight tier l ≤ operandHeight tier (l + 1) := by
  have hsquare := succ_mul_self l
  cases tier <;> simp only [operandHeight] <;> omega

mutual

theorem Expression.within {l : Nat} {input rest : Tokens} {n : Node} :
    Expression l input n rest → n.Within (l * l)
  | .sum (l := l) h => by
    rw [succ_mul_self l]
    exact h.within

theorem Chain.within {tier : Tier} {l : Nat} {input rest : Tokens} {n : Node} :
    Chain tier l input n rest → n.Within (operandHeight tier l + l)
  | .operands first more => more.within _ first.within (Nat.le_refl _)

theorem Operand.within {tier : Tier} {l : Nat} {input rest : Tokens} {n : Node} :
    Operand tier l input n rest → n.Within (operandHeight tier l)
  | .product (l := l) h => by
    have hheight : operandHeight .sum l = operandHeight .product l + l :=
      Nat.add_right_comm _ _ _
    rw [hheight]
    exact h.within
  | .unary h => h.within

/-- A fold adds one to the height and takes one level from what follows. -/
theorem Folds.within {tier : Tier} {l : Nat} {left n : Node} {input rest : Tokens} :
    Folds tier l left input n rest → ∀ b, left.Within b → operandHeight tier l ≤ b →
      n.Within (b + l)
  | .stop _, _, hleft, _ => hleft.mono (Nat.le_add_right _ _)
  | .fold (l := l) _ operand more, b, hleft, hb => by
    have hle : operandHeight tier l ≤ b := Nat.le_trans (operandHeight_le_succ tier l) hb
    have hright := operand.within.mono hle
    have hmore := more.within (b + 1) (hleft.binary hright) (Nat.le_succ_of_le hle)
    rwa [Nat.add_right_comm, Nat.add_assoc] at hmore

theorem Unary.within {l : Nat} {input rest : Tokens} {n : Node} :
    Unary l input n rest → n.Within (l * l + 1)
  | .negation (l := l) _ operand => by
    have hle : l * l + 1 ≤ (l + 1) * (l + 1) := by
      rw [succ_mul_self]
      omega
    exact (operand.within.mono hle).negation
  | .primary h => h.within

theorem Primary.within {l : Nat} {input rest : Tokens} {n : Node} :
    Primary l input n rest → n.Within (l * l + 1)
  | .call _ _ arguments => .call _ arguments.within
  | .variable _ _ => .variable _ (Nat.le_add_left _ _)
  | .literal _ => .literal _ (Nat.le_add_left _ _)
  | .parens _ inner _ => inner.within.mono (Nat.le_succ _)

theorem Arguments.within {l : Nat} {input rest : Tokens} {args : List Node} :
    Arguments l input args rest → ∀ a ∈ args, a.Within (l * l)
  | .none _ => List.forall_mem_nil _
  | .some h => h.within

theorem ArgumentList.within {l : Nat} {input rest : Tokens} {args : List Node} :
    ArgumentList l input args rest → ∀ a ∈ args, a.Within (l * l)
  | .last item _ => List.forall_mem_singleton.mpr item.within
  | .more item _ others => List.forall_mem_cons.mpr ⟨item.within, others.within⟩

end

/-! ### Statements -/

theorem Expression.bounded {l m : Nat} {input rest : Tokens} {n : Node}
    (h : Expression l input n rest) (hl : l ≤ m) : n.Bounded (m * m + 1) :=
  h.within.bounded.mono (Nat.le_succ_of_le (Nat.mul_self_le_mul_self hl))

theorem Declaration.bounded {l m line : Nat} {declared : DeclaredType} {input rest : Tokens}
    {n : Node} (h : Declaration l declared line input n rest) (hl : l ≤ m) :
    n.Bounded (m * m + 1) := by
  cases h with
  | plain _ _ => exact List.forall_mem_nil _
  | initialized _ _ initializer => exact initializer.bounded hl

mutual

theorem Statement.bounded {l m : Nat} {input rest : Tokens} {n : Node} (hl : l ≤ m + 1) :
    Statement l input n rest → n.Bounded (m * m + 1)
  | .block h => h.bounded (Nat.le_of_succ_le hl)
  | .inferred _ h => h.bounded (Nat.le_of_succ_le_succ hl)
  | .call (l := l) _ _ arguments => by
    have hsquare : l * l ≤ m * m := Nat.mul_self_le_mul_self (Nat.le_of_succ_le_succ hl)
    exact (Node.Within.call _ fun a ha => (arguments.within a ha).mono hsquare).bounded
  | .assignment _ _ h => by
    have hvalue := h.bounded (Nat.le_of_succ_le_succ hl)
    refine List.forall_mem_append.mpr ⟨?_, hvalue⟩
    exact (Node.Within.variable _ (Nat.le_add_left 1 (m * m))).bounded
  | .declaration _ _ h => h.bounded (Nat.le_of_succ_le_succ hl)
  | .lone _ _ => List.forall_mem_nil _
  | .function _ _ _ _ _ h => by
    have hbody := h.bounded (Nat.le_of_succ_le_succ hl)
    exact hbody
  | .typeOf _ _ h _ => h.bounded (Nat.le_of_succ_le_succ hl)
  | .returning _ h => h.bounded (Nat.le_of_succ_le_succ hl)
  | .branch _ h => h.bounded (Nat.le_of_succ_le_succ hl)
  | .loop _ times h =>
    List.forall_mem_append.mpr
      ⟨times.bounded (Nat.le_of_succ_le_succ hl), h.bounded (Nat.le_of_succ_le hl)⟩
  | .print _ h => h.bounded (Nat.le_of_succ_le_succ hl)
  | .expression _ h => h.bounded (Nat.le_of_succ_le_succ hl)
  | .empty _ => List.forall_mem_nil _

theorem Branch.bounded {l m line : Nat} {input rest : Tokens} {n : Node} (hl : l ≤ m) :
    Branch l line input n rest → n.Bounded (m * m + 1)
  | .single _ test _ h _ =>
    Node.bounded_branch (test.bounded hl) (h.bounded (Nat.le_succ_of_le hl)) (List.forall_mem_nil _)
  | .otherwise _ test _ h _ _ h' =>
    Node.bounded_branch (test.bounded hl) (h.bounded (Nat.le_succ_of_le hl))
      (h'.bounded (Nat.le_succ_of_le hl))
  | .chained _ test _ h _ _ h' =>
    Node.bounded_branch (test.bounded hl) (h.bounded (Nat.le_succ_of_le hl))
      (h'.bounded (Nat.le_of_succ_le hl))

theorem Block.bounded {l m : Nat} {input rest : Tokens} {n : Node} (hl : l ≤ m + 1) :
    Block l input n rest → n.Bounded (m * m + 1)
  | .braces _ h _ => Node.bounded_nodes (h.bounded hl)

theorem Body.bounded {l m : Nat} {returnType : String} {input rest : Tokens} {n : Node}
    (hl : l ≤ m) : Body l returnType input n rest → n.Bounded (m * m + 1)
  | .block h => h.bounded (Nat.le_succ_of_le hl)
  | .expression _ _ h => Node.bounded_nodes (List.forall_mem_singleton.mpr (h.bounded hl))
  | .statement _ _ h =>
    Node.bounded_nodes (List.forall_mem_singleton.mpr (h.bounded (Nat.le_succ_of_le hl)))

theorem Statements.bounded {l m : Nat} {closing : Kind} {input rest : Tokens} {nodes : List Node}
    (hl : l ≤ m + 1) : Statements l closing input nodes rest → ∀ n ∈ nodes, n.Bounded (m * m + 1)
  | .done _ => List.forall_mem_nil _
  | .semicolon _ more => more.bounded hl
  | .statement _ first _ more => List.forall_mem_cons.mpr ⟨first.bounded hl, more.bounded hl⟩

end

theorem Unit.bounded {m : Nat} {input : Tokens} {tree : Node} (h : Unit (m + 1) input tree) :
    tree.Bounded (m * m + 1) := by
  cases h with
  | statements h => exact Node.bounded_nodes (h.bounded (Nat.le_refl _))

end Derivation

end ConsoleScript
