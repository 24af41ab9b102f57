import Mathlib.Order.Bounds.Defs
import ConsoleScript.Proofs.Printing.RoundTrip
import ConsoleScript.Proofs.Syntax.Acceptance
import ConsoleScript.Proofs.Syntax.Height

/-!
# The highest expressions

The square of the levels is reached: in a tower, a call is the first operand of a product which is
the first operand of a sum, both as long as they can be, and its argument is the next lower tower.
So the limit on the levels of nesting bounds the height of expressions by that same limit only if
the levels are few.
-/

namespace ConsoleScript

open ConsoleScript.Derivation

/-- The text is parsed as the tree, and its tokens derive the tree with so many levels. -/
structure ParsesWithin (l : Nat) (text : String) (tree : Node) : Prop where
  parsed : parse Vocabulary.console text = .ok tree
  derived : ∃ ts after last, Lexer.tokens (Lexer.start Vocabulary.console text) = .ok ts after ∧
    Derivation.Unit l (ts ++ [last]) tree

theorem ParsesWithin.bounded {n : Nat} {text : String} {tree : Node}
    (h : ParsesWithin (n + 1) text tree) : tree.Bounded (n * n + 1) := by
  obtain ⟨_, ts, after, last, _, hunit⟩ := h
  exact hunit.bounded

/-- No accepted text needs more levels than the limit. -/
theorem parsesWithin_nestingLimit_iff {text : String} {tree : Node} :
    ParsesWithin nestingLimit text tree ↔ parse Vocabulary.console text = .ok tree := by
  refine ⟨ParsesWithin.parsed, fun h => ⟨h, ?_⟩⟩
  obtain ⟨input, hdelivers, hunit⟩ := Grammar.parseFrom_sound h
  obtain ⟨ts, after, last, htokens, _, rfl⟩ := hunit.tokens_eq hdelivers
  exact ⟨ts, after, last, htokens, hunit⟩

/-! ### Heights and lines -/

mutual

theorem Node.height_unlined : (n : Node) → n.unlined.height = n.height
  | .literal _ _ | .variable _ _ | .noOp _ => rfl
  | .negation expr _ | .print expr _ | .typeOf expr _ | .returning expr _ =>
    congrArg (· + 1) expr.height_unlined
  | .binary left _ right _ => by
    simp only [Node.unlined, Node.height, left.height_unlined, right.height_unlined]
  | .assignment target value _ => by
    simp only [Node.unlined, Node.height, target.height_unlined, value.height_unlined]
  | .declaration _ _ initializer _ => congrArg (· + 1) (heightOption_unlined initializer)
  | .block nodes _ | .call _ nodes _ => congrArg (· + 1) (heightNodes_unlined nodes)
  | .branch condition thenBody elseBody _ => by
    simp only [Node.unlined, Node.height, condition.height_unlined, thenBody.height_unlined,
      heightOption_unlined elseBody]
  | .loop count body _ => by
    simp only [Node.unlined, Node.height, count.height_unlined, body.height_unlined]
  | .function _ _ _ body _ => congrArg (· + 1) body.height_unlined

theorem heightOption_unlined : (o : Option Node) → heightOption (unlinedOption o) = heightOption o
  | none => rfl
  | some n => n.height_unlined

theorem heightNodes_unlined : (ns : List Node) → heightNodes (unlinedNodes ns) = heightNodes ns
  | [] => rfl
  | n :: ns => by
    simp only [unlinedNodes, heightNodes, n.height_unlined, heightNodes_unlined ns]

end

mutual

theorem Node.expressions_unlined :
    (n : Node) → n.unlined.expressions = n.expressions.map Node.unlined
  | .literal _ _ | .variable _ _ | .noOp _ => rfl
  | .negation operand _ => by
    simp [Node.unlined, Node.expressions, operand.expressions_unlined]
  | .print expr _ | .typeOf expr _ | .returning expr _ => expr.expressions_unlined
  | .binary left _ right _ => by
    simp [Node.unlined, Node.expressions, left.expressions_unlined, right.expressions_unlined]
  | .assignment target value _ => by
    simp [Node.unlined, Node.expressions, target.expressions_unlined, value.expressions_unlined]
  | .declaration _ _ initializer _ => expressionsOption_unlined initializer
  | .block nodes _ => expressionsNodes_unlined nodes
  | .call _ args _ => by
    simp [Node.unlined, Node.expressions, expressionsNodes_unlined args]
  | .branch condition thenBody elseBody _ => by
    simp [Node.unlined, Node.expressions, condition.expressions_unlined,
      thenBody.expressions_unlined, expressionsOption_unlined elseBody]
  | .loop count body _ => by
    simp [Node.unlined, Node.expressions, count.expressions_unlined, body.expressions_unlined]
  | .function _ _ _ body _ => body.expressions_unlined

theorem expressionsOption_unlined :
    (o : Option Node) → expressionsOption (unlinedOption o) = (expressionsOption o).map Node.unlined
  | none => rfl
  | some n => n.expressions_unlined

theorem expressionsNodes_unlined :
    (ns : List Node) → expressionsNodes (unlinedNodes ns) = (expressionsNodes ns).map Node.unlined
  | [] => rfl
  | n :: ns => by
    simp [unlinedNodes, expressionsNodes, n.expressions_unlined, expressionsNodes_unlined ns]

end

theorem Node.exists_of_unlined {tree e : Node} (he : e ∈ tree.unlined.expressions) :
    ∃ e' ∈ tree.expressions, e'.height = e.height := by
  rw [tree.expressions_unlined] at he
  obtain ⟨e', he', rfl⟩ := List.mem_map.mp he
  exact ⟨e', he', e'.height_unlined.symm⟩

theorem Node.height_pos (n : Node) : 1 ≤ n.height := by
  cases n <;> simp [Node.height]

namespace Printing

open Grammar (Tier)

theorem exists_parsesWithin (program : List Stmt)
    (hlimit : statementLevels program ≤ nestingLimit) :
    ∃ tree, tree.unlined = .block (statementNodes program) 0 ∧
      ParsesWithin (statementLevels program) (print program) tree := by
  obtain ⟨ts, last, hstreams, hts, hlast⟩ := exists_tokens program
  obtain ⟨tree, htree, hunit⟩ := derives_program program hts hlast
  refine ⟨tree, htree, ?_, ?_⟩
  · rcases hunit.parseFrom_eq hstreams with hok | ⟨hlt, _⟩
    · exact hok
    · exact absurd hlimit (Nat.not_le_of_lt hlt)
  · obtain ⟨ts', after, last', htokens, _, heq⟩ := hunit.tokens_eq hstreams.delivers
    exact ⟨ts', after, last', htokens, heq ▸ hunit⟩

/-! ### Towers -/

def chain (op : BinaryOperator) (e : Expr) : Nat → Expr
  | 0 => e
  | k + 1 => .binary (chain op e k) op (.constant .null)

def tower (f : Name) : Nat → Expr
  | 0 => .constant .null
  | l + 1 => chain .add (chain .multiply (.call f [tower f l]) (l + 1)) (l + 1)

theorem height_chain (op : BinaryOperator) (e : Expr) (k : Nat) :
    (chain op e k).toNode.height = e.toNode.height + k := by
  induction k with
  | zero => rfl
  | succ k ih =>
    have hpos := e.toNode.height_pos
    simp only [chain, Expr.toNode, Node.height, ih]
    omega

theorem height_tower (f : Name) (l : Nat) :
    (tower f l).toNode.height = (l + 1) * (l + 1) := by
  induction l with
  | zero => rfl
  | succ l ih =>
    rw [tower, height_chain, height_chain, succ_mul_self (l + 1)]
    simp only [Expr.toNode, argumentNodes, Node.height, heightNodes, ih]
    omega

theorem folds_chain {op : BinaryOperator} {e : Expr} (he : e.folds (tierOf op) = 0) (k : Nat) :
    (chain op e k).folds (tierOf op) = k := by
  induction k with
  | zero => exact he
  | succ k ih =>
    cases op <;> simp_all [chain, Expr.folds, tierOf]

theorem admits_leftPlace (tier : Tier) : (leftPlace tier).admits tier = true := by
  cases tier <;> rfl

theorem levels_chain {op : BinaryOperator} {e : Expr} {m : Nat} (he : e.folds (tierOf op) = 0)
    (hlevels : ∀ place : Place, place.admits (tierOf op) → e.levels place = m) (k : Nat) :
    ∀ place : Place, place.admits (tierOf op) → (chain op e k).levels place = max m k := by
  induction k with
  | zero =>
    intro place hplace
    rw [chain, hlevels place hplace, Nat.max_zero]
  | succ k ih =>
    intro place hplace
    have hleft := ih (leftPlace (tierOf op)) (admits_leftPlace _)
    simp only [chain, Expr.levels, hleft, folds_chain he, hplace, if_true]
    omega

theorem levels_tower (f : Name) (l : Nat) : (tower f l).levels .sum = l := by
  induction l with
  | zero => rfl
  | succ l ih =>
    have hcall : ∀ place : Place, place.admits (tierOf .multiply) →
        (Expr.call f [tower f l]).levels place = l + 1 := by
      intro place _
      simp only [Expr.levels, argumentLevels, ih, Nat.max_zero]
    have hproduct := levels_chain rfl hcall (l + 1)
    have hfactors : ∀ place : Place, place.admits (tierOf .add) →
        (chain .multiply (.call f [tower f l]) (l + 1)).levels place = l + 1 := by
      intro place hplace
      cases place with
      | sum => rw [hproduct .sum rfl, Nat.max_self]
      | product => exact absurd hplace (by decide)
      | unary => exact absurd hplace (by decide)
    rw [tower, levels_chain rfl hfactors (l + 1) .sum rfl, Nat.max_self]

/-- The arguments of a call that is as high as a statement of the next higher level can be. -/
def tallArguments (f : Name) : Nat → List Expr
  | 0 => []
  | n + 1 => [tower f n]

theorem height_tallArguments (f : Name) (n : Nat) :
    heightNodes (argumentNodes (tallArguments f n)) = n * n := by
  cases n with
  | zero => rfl
  | succ n => simp only [tallArguments, argumentNodes, heightNodes, height_tower, Nat.max_zero]

theorem levels_tallArguments (f : Name) (n : Nat) :
    argumentLevels (tallArguments f n) = n := by
  cases n with
  | zero => rfl
  | succ n => simp only [tallArguments, argumentLevels, levels_tower, Nat.max_zero]

def callee : Name := ⟨"f", by decide⟩

end Printing

open Printing

theorem exists_height_eq {n : Nat} (hn : n < nestingLimit) :
    ∃ text tree, ParsesWithin (n + 1) text tree ∧
      ∃ e ∈ tree.expressions, e.height = n * n + 1 := by
  have hlevels : statementLevels [.call callee (tallArguments callee n)] = n + 1 := by
    simp only [statementLevels, Stmt.levels, levels_tallArguments, Nat.max_zero]
  obtain ⟨tree, htree, hparses⟩ := exists_parsesWithin _ (Nat.le_trans (Nat.le_of_eq hlevels) hn)
  rw [hlevels] at hparses
  have hcall : Node.call callee.text (argumentNodes (tallArguments callee n)) 0 ∈
      tree.unlined.expressions := by
    rw [htree]
    exact List.mem_append_left _ List.mem_cons_self
  obtain ⟨e, he, hheight⟩ := Node.exists_of_unlined hcall
  refine ⟨_, tree, hparses, e, he, ?_⟩
  rw [hheight, Node.height, height_tallArguments]

/-- The highest expression that is derived with `n + 1` levels has the square of `n` and one more
nodes on a path. So the height stays within the limit only as long as the square is below it. -/
theorem height_le_nestingLimit_iff {n : Nat} (hn : n < nestingLimit) :
    IsGreatest {h | ∃ text tree, ParsesWithin (n + 1) text tree ∧
      ∃ e ∈ tree.expressions, e.height = h} (n * n + 1) ∧
    ((∀ text tree, ParsesWithin (n + 1) text tree →
      ∀ e ∈ tree.expressions, e.height ≤ nestingLimit) ↔ n * n < nestingLimit) := by
  obtain ⟨text, tree, hparses, e, he, hheight⟩ := exists_height_eq hn
  refine ⟨⟨⟨text, tree, hparses, e, he, hheight⟩, ?_⟩, fun hall => ?_, fun hsquare => ?_⟩
  · rintro h ⟨text, tree, hparses, e, he, rfl⟩
    exact hparses.bounded e he
  · have hle := hall text tree hparses e he
    rwa [hheight] at hle
  · intro text tree hparses e he
    exact Nat.le_trans (hparses.bounded e he) hsquare

/-- Of all texts that are accepted. -/
theorem height_le_nestingLimit_iff_accepted :
    127 < nestingLimit ∧
    IsGreatest {h | ∃ text tree, parse Vocabulary.console text = .ok tree ∧
      ∃ e ∈ tree.expressions, e.height = h} (127 * 127 + 1) ∧
    ¬ ∀ text tree, parse Vocabulary.console text = .ok tree →
      ∀ e ∈ tree.expressions, e.height ≤ nestingLimit := by
  have hn : 127 < nestingLimit := by decide
  have hbound := height_le_nestingLimit_iff hn
  have hlimit : 127 + 1 = nestingLimit := rfl
  simp only [hlimit, parsesWithin_nestingLimit_iff] at hbound
  exact ⟨hn, hbound.1, fun h => absurd (hbound.2.mp h) (by decide)⟩

/-- The levels of the minus signs are free again when the sums are counted. -/
theorem nestingLimit_lt_height_minuses :
    ∃ tree, parse Vocabulary.console
        ("print " ++ String.join (List.replicate 126 "- ") ++ "1 + 1 + 1") = .ok tree ∧
      ∃ e ∈ tree.expressions, nestingLimit < e.height := by
  let one : Expr := .constant (.int 1 (by decide))
  let value : Expr := .binary (.binary (Nat.repeat .negation 126 one) .add one) .add one
  have htext : "print " ++ String.join (List.replicate 126 "- ") ++ "1 + 1 + 1" =
      print [.print value] := by decide +kernel
  have hlevels : statementLevels [.print value] = nestingLimit := by decide +kernel
  have hheight : value.toNode.height = nestingLimit + 1 := by decide +kernel
  obtain ⟨tree, htree, hparses⟩ := exists_parsesWithin [.print value] (Nat.le_of_eq hlevels)
  have hvalue : value.toNode ∈ tree.unlined.expressions := by
    rw [htree]
    exact List.mem_append_left _ List.mem_cons_self
  obtain ⟨e, he, heq⟩ := Node.exists_of_unlined hvalue
  refine ⟨tree, htext ▸ hparses.parsed, e, he, ?_⟩
  rw [heq, hheight]
  exact Nat.lt_succ_self _

end ConsoleScript
