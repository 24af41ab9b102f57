import ConsoleScript.Proofs.Syntax.Soundness

/-!
# The shape of parsed trees

A tree may be put together from any nodes, but not every tree is parsed from a text. In a parsed tree
only nodes that have a value stand where a value is needed, and only variables are assigned to, in
the bodies of functions as anywhere else.
-/

namespace ConsoleScript

namespace Node

inductive IsExpression : Node → Prop where
  | literal {value : Value} {line : Nat} : IsExpression (.literal value line)
  | variable {name : String} {line : Nat} : IsExpression (.variable name line)
  | negation {operand : Node} {line : Nat} (h : IsExpression operand) :
      IsExpression (.negation operand line)
  | binary {left right : Node} {op : BinaryOperator} {line : Nat} (hleft : IsExpression left)
      (hright : IsExpression right) : IsExpression (.binary left op right line)
  | call {name : String} {args : List Node} {line : Nat} (h : ∀ a ∈ args, IsExpression a) :
      IsExpression (.call name args line)

inductive IsStatement : Node → Prop where
  | expression {n : Node} (h : n.IsExpression) : IsStatement n
  | assignment {name : String} {value : Node} {line line' : Nat} (h : value.IsExpression) :
      IsStatement (.assignment (.variable name line') value line)
  | declaration {declared : DeclaredType} {names : List String} {initializer : Option Node}
      {line : Nat} (h : ∀ n ∈ initializer, n.IsExpression) :
      IsStatement (.declaration declared names initializer line)
  | block {nodes : List Node} {line : Nat} (h : ∀ n ∈ nodes, IsStatement n) :
      IsStatement (.block nodes line)
  | branch {condition thenBody : Node} {elseBody : Option Node} {line : Nat}
      (hcondition : condition.IsExpression) (hthen : IsStatement thenBody)
      (helse : ∀ n ∈ elseBody, IsStatement n) :
      IsStatement (.branch condition thenBody elseBody line)
  | loop {count body : Node} {line : Nat} (hcount : count.IsExpression) (hbody : IsStatement body) :
      IsStatement (.loop count body line)
  | print {expr : Node} {line : Nat} (h : expr.IsExpression) : IsStatement (.print expr line)
  | typeOf {expr : Node} {line : Nat} (h : expr.IsExpression) : IsStatement (.typeOf expr line)
  | returning {expr : Node} {line : Nat} (h : expr.IsExpression) :
      IsStatement (.returning expr line)
  | function {name returnType : String} {params : List Parameter} {body : Node} {line : Nat}
      (h : IsStatement body) : IsStatement (.function name returnType params body line)
  | noOp {line : Nat} : IsStatement (.noOp line)

end Node

namespace Derivation

open Grammar (Tier)

mutual

theorem Expression.isExpression {l : Nat} {input rest : Tokens} {n : Node} :
    Expression l input n rest → n.IsExpression
  | .sum h => h.isExpression

theorem Chain.isExpression {tier : Tier} {l : Nat} {input rest : Tokens} {n : Node} :
    Chain tier l input n rest → n.IsExpression
  | .operands first more => more.isExpression first.isExpression

theorem Operand.isExpression {tier : Tier} {l : Nat} {input rest : Tokens} {n : Node} :
    Operand tier l input n rest → n.IsExpression
  | .product h => h.isExpression
  | .unary h => h.isExpression

theorem Folds.isExpression {tier : Tier} {l : Nat} {left n : Node} {input rest : Tokens} :
    Folds tier l left input n rest → left.IsExpression → n.IsExpression
  | .stop _, hleft => hleft
  | .fold _ operand more, hleft => more.isExpression (.binary hleft operand.isExpression)

theorem Unary.isExpression {l : Nat} {input rest : Tokens} {n : Node} :
    Unary l input n rest → n.IsExpression
  | .negation _ operand => .negation operand.isExpression
  | .primary h => h.isExpression

theorem Primary.isExpression {l : Nat} {input rest : Tokens} {n : Node} :
    Primary l input n rest → n.IsExpression
  | .call _ _ arguments => .call arguments.isExpression
  | .variable _ _ => .variable
  | .literal _ => .literal
  | .parens _ inner _ => inner.isExpression

theorem Arguments.isExpression {l : Nat} {input rest : Tokens} {args : List Node} :
    Arguments l input args rest → ∀ a ∈ args, a.IsExpression
  | .none _ => List.forall_mem_nil _
  | .some h => h.isExpression

theorem ArgumentList.isExpression {l : Nat} {input rest : Tokens} {args : List Node} :
    ArgumentList l input args rest → ∀ a ∈ args, a.IsExpression
  | .last item _ => List.forall_mem_singleton.mpr item.isExpression
  | .more item _ others => List.forall_mem_cons.mpr ⟨item.isExpression, others.isExpression⟩

end

theorem Declaration.isStatement {l line : Nat} {declared : DeclaredType} {input rest : Tokens}
    {n : Node} (h : Declaration l declared line input n rest) : n.IsStatement := by
  cases h with
  | plain _ _ =>
    apply Node.IsStatement.declaration
    rintro n ⟨⟩
  | initialized _ _ initializer =>
    apply Node.IsStatement.declaration
    rintro n ⟨⟩
    exact initializer.isExpression

mutual

theorem Statement.isStatement {l : Nat} {input rest : Tokens} {n : Node} :
    Statement l input n rest → n.IsStatement
  | .block h => h.isStatement
  | .inferred _ h => h.isStatement
  | .call _ _ arguments => .expression (.call arguments.isExpression)
  | .assignment _ _ h => .assignment h.isExpression
  | .declaration _ _ h => h.isStatement
  | .lone _ _ => .noOp
  | .function _ _ _ _ _ h => .function h.isStatement
  | .typeOf _ _ h _ => .typeOf h.isExpression
  | .returning _ h => .returning h.isExpression
  | .branch _ h => h.isStatement
  | .loop _ times h => .loop times.isExpression h.isStatement
  | .print _ h => .print h.isExpression
  | .expression _ h => .expression h.isExpression
  | .empty _ => .noOp

theorem Branch.isStatement {l line : Nat} {input rest : Tokens} {n : Node} :
    Branch l line input n rest → n.IsStatement
  | .single _ test _ h _ => by
    apply Node.IsStatement.branch test.isExpression h.isStatement
    rintro n ⟨⟩
  | .otherwise _ test _ h _ _ h' => by
    apply Node.IsStatement.branch test.isExpression h.isStatement
    rintro n ⟨⟩
    exact h'.isStatement
  | .chained _ test _ h _ _ h' => by
    apply Node.IsStatement.branch test.isExpression h.isStatement
    rintro n ⟨⟩
    exact h'.isStatement

theorem Block.isStatement {l : Nat} {input rest : Tokens} {n : Node} :
    Block l input n rest → n.IsStatement
  | .braces _ h _ => .block h.isStatement

theorem Body.isStatement {l : Nat} {returnType : String} {input rest : Tokens} {n : Node} :
    Body l returnType input n rest → n.IsStatement
  | .block h => h.isStatement
  | .expression _ _ h => .block (List.forall_mem_singleton.mpr (.returning h.isExpression))
  | .statement _ _ h => .block (List.forall_mem_singleton.mpr h.isStatement)

theorem Statements.isStatement {l : Nat} {closing : Kind} {input rest : Tokens}
    {nodes : List Node} : Statements l closing input nodes rest → ∀ n ∈ nodes, n.IsStatement
  | .done _ => List.forall_mem_nil _
  | .semicolon _ more => more.isStatement
  | .statement _ first _ more => List.forall_mem_cons.mpr ⟨first.isStatement, more.isStatement⟩

end

end Derivation

/-- A text is parsed as the statements of one block. -/
theorem shape_of_parse {text : String} {tree : Node}
    (h : parse Vocabulary.console text = .ok tree) :
    ∃ nodes line, tree = .block nodes line ∧ ∀ n ∈ nodes, n.IsStatement := by
  obtain ⟨input, _, hunit⟩ := Grammar.parseFrom_sound h
  cases hunit with
  | statements hnodes => exact ⟨_, _, rfl, hnodes.isStatement⟩

end ConsoleScript
