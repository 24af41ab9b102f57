import ConsoleScript.Syntax.Statement

/-!
# Derivations of the grammar

A rule relates the tokens from some place on to a tree and to the tokens behind it, so a derivation
goes through the tokens once and in order. The first of the tokens behind is what a rule may look
at without taking it: a name is a variable only if no parenthesis follows, a chain ends only where
no operator of its tier follows, and an `else` belongs to the nearest `if`.

The number is a bound on the levels of nesting that the derivation goes down.
-/

namespace ConsoleScript.Derivation

open Grammar (Tier literal?)

abbrev Tokens := List (Token Kind)

def Named (t : Token Kind) (name : String) : Prop :=
  t.kind = .identifier ∧ t.value = some (.text name)

/-- What holds of the token ahead, if there is one. -/
def Ahead (p : Kind → Prop) (rest : Tokens) : Prop :=
  ∀ t ∈ rest.head?, p t.kind

mutual

inductive Expression : Nat → Tokens → Node → Tokens → Prop where
  | sum {l : Nat} {input rest : Tokens} {n : Node} (h : Chain .sum l input n rest) :
      Expression (l + 1) input n rest

/-- Operands of one tier with its operators between them. -/
inductive Chain : Tier → Nat → Tokens → Node → Tokens → Prop where
  | operands {tier : Tier} {l : Nat} {input mid rest : Tokens} {left n : Node}
      (first : Operand tier l input left mid) (more : Folds tier l left mid n rest) :
      Chain tier l input n rest

inductive Operand : Tier → Nat → Tokens → Node → Tokens → Prop where
  | product {l : Nat} {input rest : Tokens} {n : Node} (h : Chain .product l input n rest) :
      Operand .sum l input n rest
  | unary {l : Nat} {input rest : Tokens} {n : Node} (h : Unary l input n rest) :
      Operand .product l input n rest

/-- The rest of a chain whose operands so far are folded into the given tree. -/
inductive Folds : Tier → Nat → Node → Tokens → Node → Tokens → Prop where
  | stop {tier : Tier} {l : Nat} {left : Node} {rest : Tokens}
      (ahead : Ahead (fun kind => tier.operator? kind = none) rest) :
      Folds tier l left rest left rest
  | fold {tier : Tier} {l : Nat} {left right n : Node} {t : Token Kind} {op : BinaryOperator}
      {input mid rest : Tokens} (operator : tier.operator? t.kind = some op)
      (operand : Operand tier l input right mid)
      (more : Folds tier l (.binary left op right t.line) mid n rest) :
      Folds tier (l + 1) left (t :: input) n rest

inductive Unary : Nat → Tokens → Node → Tokens → Prop where
  | negation {l : Nat} {t : Token Kind} {input rest : Tokens} {n : Node}
      (minus : t.kind = .minus) (operand : Unary l input n rest) :
      Unary (l + 1) (t :: input) (.negation n t.line) rest
  | primary {l : Nat} {input rest : Tokens} {n : Node} (h : Primary l input n rest) :
      Unary l input n rest

inductive Primary : Nat → Tokens → Node → Tokens → Prop where
  | call {l : Nat} {t opening : Token Kind} {name : String} {input rest : Tokens}
      {args : List Node} (named : Named t name) (opens : opening.kind = .leftParen)
      (arguments : Arguments l input args rest) :
      Primary l (t :: opening :: input) (.call name args t.line) rest
  | variable {l : Nat} {t : Token Kind} {name : String} {rest : Tokens} (named : Named t name)
      (ahead : Ahead (· ≠ .leftParen) rest) : Primary l (t :: rest) (.variable name t.line) rest
  | literal {l : Nat} {t : Token Kind} {value : Value} {rest : Tokens}
      (spells : literal? t = some value) : Primary l (t :: rest) (.literal value t.line) rest
  | parens {l : Nat} {opening closing : Token Kind} {input rest : Tokens} {n : Node}
      (opens : opening.kind = .leftParen) (inner : Expression l input n (closing :: rest))
      (closes : closing.kind = .rightParen) : Primary l (opening :: input) n rest

/-- The arguments of a call, up to and including the closing parenthesis. -/
inductive Arguments : Nat → Tokens → List Node → Tokens → Prop where
  | none {l : Nat} {closing : Token Kind} {rest : Tokens} (closes : closing.kind = .rightParen) :
      Arguments l (closing :: rest) [] rest
  | some {l : Nat} {input rest : Tokens} {args : List Node}
      (h : ArgumentList l input args rest) : Arguments l input args rest

inductive ArgumentList : Nat → Tokens → List Node → Tokens → Prop where
  | last {l : Nat} {closing : Token Kind} {input rest : Tokens} {n : Node}
      (item : Expression l input n (closing :: rest)) (closes : closing.kind = .rightParen) :
      ArgumentList l input [n] rest
  | more {l : Nat} {comma : Token Kind} {input mid rest : Tokens} {n : Node} {args : List Node}
      (item : Expression l input n (comma :: mid)) (separates : comma.kind = .comma)
      (others : ArgumentList l mid args rest) : ArgumentList l input (n :: args) rest

end

inductive Names : Tokens → List String → Tokens → Prop where
  | last {t : Token Kind} {name : String} {rest : Tokens} (named : Named t name)
      (ahead : Ahead (· ≠ .comma) rest) : Names (t :: rest) [name] rest
  | more {t comma : Token Kind} {name : String} {names : List String} {input rest : Tokens}
      (named : Named t name) (separates : comma.kind = .comma)
      (others : Names input names rest) : Names (t :: comma :: input) (name :: names) rest

/-- The variables of a declaration and their value, its type having been taken on the line. -/
inductive Declaration : Nat → DeclaredType → Nat → Tokens → Node → Tokens → Prop where
  | plain {l line : Nat} {type : String} {names : List String} {input rest : Tokens}
      (declares : Names input names rest) (ahead : Ahead (· ≠ .assign) rest) :
      Declaration l (.named type) line input (.declaration (.named type) names .none line) rest
  | initialized {l line : Nat} {declared : DeclaredType} {names : List String}
      {input mid rest : Tokens} {t : Token Kind} {value : Node}
      (declares : Names input names (t :: mid)) (assigns : t.kind = .assign)
      (initializer : Expression l mid value rest) :
      Declaration l declared line input (.declaration declared names (.some value) line) rest

inductive Parameter : Tokens → ConsoleScript.Parameter → Tokens → Prop where
  | typed {t u : Token Kind} {type name : String} {rest : Tokens} (type_named : Named t type)
      (named : Named u name) : Parameter (t :: u :: rest) ⟨type, name⟩ rest

/-- The parameters of a function, up to and including the closing parenthesis. -/
inductive ParameterList : Tokens → List ConsoleScript.Parameter → Tokens → Prop where
  | last {closing : Token Kind} {input rest : Tokens} {param : ConsoleScript.Parameter}
      (item : Parameter input param (closing :: rest)) (closes : closing.kind = .rightParen) :
      ParameterList input [param] rest
  | more {comma : Token Kind} {input mid rest : Tokens} {param : ConsoleScript.Parameter}
      {params : List ConsoleScript.Parameter} (item : Parameter input param (comma :: mid))
      (separates : comma.kind = .comma) (others : ParameterList mid params rest) :
      ParameterList input (param :: params) rest

inductive Parameters : Tokens → List ConsoleScript.Parameter → Tokens → Prop where
  | none {closing : Token Kind} {rest : Tokens} (closes : closing.kind = .rightParen) :
      Parameters (closing :: rest) [] rest
  | some {input rest : Tokens} {params : List ConsoleScript.Parameter}
      (h : ParameterList input params rest) : Parameters input params rest

/-- The kinds of tokens at which an expression is read as a statement. -/
def startsExpression : Kind → Bool
  | .null | .integer | .float | .string | .true | .false | .leftParen | .minus => true
  | _ => false

/-- The kinds of tokens that select a rule for a statement. -/
def startsStatement : Kind → Bool
  | .leftBrace | .var | .identifier | .func | .typeOf | .return | .if | .loop | .print => true
  | kind => startsExpression kind

/-- Nothing has to stand between the statement and the next one: it is not empty, and its last token
is a brace. -/
def EndsInBrace (input : Tokens) (n : Node) (rest : Tokens) : Prop :=
  n.isNoOp = false ∧ ∃ (taken : Tokens) (brace : Token Kind),
    input = taken ++ brace :: rest ∧ brace.kind = .rightBrace

mutual

inductive Statement : Nat → Tokens → Node → Tokens → Prop where
  | block {l : Nat} {input rest : Tokens} {n : Node} (h : Block l input n rest) :
      Statement (l + 1) input n rest
  | inferred {l : Nat} {t : Token Kind} {input rest : Tokens} {n : Node} (head : t.kind = .var)
      (h : Declaration l .inferred t.line input n rest) : Statement (l + 1) (t :: input) n rest
  | call {l : Nat} {t opening : Token Kind} {name : String} {input rest : Tokens}
      {args : List Node} (named : Named t name) (opens : opening.kind = .leftParen)
      (arguments : Arguments l input args rest) :
      Statement (l + 1) (t :: opening :: input) (.call name args t.line) rest
  | assignment {l : Nat} {t equals : Token Kind} {name : String} {input rest : Tokens}
      {value : Node} (named : Named t name) (assigns : equals.kind = .assign)
      (h : Expression l input value rest) :
      Statement (l + 1) (t :: equals :: input)
        (.assignment (.variable name t.line) value t.line) rest
  | declaration {l : Nat} {t u : Token Kind} {name : String} {input rest : Tokens} {n : Node}
      (named : Named t name) (ahead : u.kind = .identifier)
      (h : Declaration l (.named name) t.line (u :: input) n rest) :
      Statement (l + 1) (t :: u :: input) n rest
  | lone {l : Nat} {t : Token Kind} {name : String} {rest : Tokens} (named : Named t name)
      (ahead : Ahead (fun kind => kind ≠ .leftParen ∧ kind ≠ .assign ∧ kind ≠ .identifier) rest) :
      Statement (l + 1) (t :: rest) (.noOp t.line) rest
  | function {l : Nat} {t r f opening : Token Kind} {returnType name : String}
      {params : List ConsoleScript.Parameter} {input mid rest : Tokens} {body : Node}
      (head : t.kind = .func) (type_named : Named r returnType) (named : Named f name)
      (opens : opening.kind = .leftParen) (parameters : Parameters input params mid)
      (h : Body l returnType mid body rest) :
      Statement (l + 1) (t :: r :: f :: opening :: input)
        (.function name returnType params body t.line) rest
  | typeOf {l : Nat} {t opening closing : Token Kind} {input rest : Tokens} {n : Node}
      (head : t.kind = .typeOf) (opens : opening.kind = .leftParen)
      (h : Expression l input n (closing :: rest)) (closes : closing.kind = .rightParen) :
      Statement (l + 1) (t :: opening :: input) (.typeOf n t.line) rest
  | returning {l : Nat} {t : Token Kind} {input rest : Tokens} {n : Node}
      (head : t.kind = .return) (h : Expression l input n rest) :
      Statement (l + 1) (t :: input) (.returning n t.line) rest
  | branch {l : Nat} {t : Token Kind} {input rest : Tokens} {n : Node} (head : t.kind = .if)
      (h : Branch l t.line input n rest) : Statement (l + 1) (t :: input) n rest
  | loop {l : Nat} {t : Token Kind} {input mid rest : Tokens} {count body : Node}
      (head : t.kind = .loop) (times : Expression l input count mid)
      (h : Statement l mid body rest) :
      Statement (l + 1) (t :: input) (.loop count body t.line) rest
  | print {l : Nat} {t : Token Kind} {input rest : Tokens} {n : Node} (head : t.kind = .print)
      (h : Expression l input n rest) : Statement (l + 1) (t :: input) (.print n t.line) rest
  | expression {l : Nat} {t : Token Kind} {input rest : Tokens} {n : Node}
      (head : startsExpression t.kind) (h : Expression l (t :: input) n rest) :
      Statement (l + 1) (t :: input) n rest
  | empty {l : Nat} {t : Token Kind} {rest : Tokens} (ahead : startsStatement t.kind = false) :
      Statement (l + 1) (t :: rest) (.noOp t.line) (t :: rest)

/-- A statement whose `if` has been taken on the line. -/
inductive Branch : Nat → Nat → Tokens → Node → Tokens → Prop where
  | single {l line : Nat} {opening closing : Token Kind} {input mid rest : Tokens}
      {condition thenBody : Node} (opens : opening.kind = .leftParen)
      (test : Expression l input condition (closing :: mid)) (closes : closing.kind = .rightParen)
      (h : Statement l mid thenBody rest) (ahead : Ahead (· ≠ .else) rest) :
      Branch l line (opening :: input) (.branch condition thenBody .none line) rest
  | otherwise {l line : Nat} {opening closing other t : Token Kind}
      {input mid rest behind : Tokens} {condition thenBody elseBody : Node}
      (opens : opening.kind = .leftParen)
      (test : Expression l input condition (closing :: mid)) (closes : closing.kind = .rightParen)
      (h : Statement l mid thenBody (other :: t :: behind)) (splits : other.kind = .else)
      (ahead : t.kind ≠ .if) (h' : Statement l (t :: behind) elseBody rest) :
      Branch l line (opening :: input) (.branch condition thenBody (.some elseBody) line) rest
  | chained {l line : Nat} {opening closing other t : Token Kind}
      {input mid rest behind : Tokens} {condition thenBody elseBody : Node}
      (opens : opening.kind = .leftParen)
      (test : Expression (l + 1) input condition (closing :: mid))
      (closes : closing.kind = .rightParen)
      (h : Statement (l + 1) mid thenBody (other :: t :: behind)) (splits : other.kind = .else)
      (again : t.kind = .if) (h' : Branch l t.line behind elseBody rest) :
      Branch (l + 1) line (opening :: input) (.branch condition thenBody (.some elseBody) line)
        rest

inductive Block : Nat → Tokens → Node → Tokens → Prop where
  | braces {l : Nat} {opening closing : Token Kind} {input rest : Tokens} {nodes : List Node}
      (opens : opening.kind = .leftBrace)
      (h : Statements l .rightBrace input nodes (closing :: rest))
      (closes : closing.kind = .rightBrace) :
      Block l (opening :: input) (.block nodes opening.line) rest

inductive Body : Nat → String → Tokens → Node → Tokens → Prop where
  | block {l : Nat} {returnType : String} {input rest : Tokens} {n : Node}
      (h : Block l input n rest) : Body l returnType input n rest
  | expression {l : Nat} {returnType : String} {t : Token Kind} {input rest : Tokens} {n : Node}
      (result : returnType ≠ "void") (ahead : t.kind ≠ .leftBrace ∧ t.kind ≠ .return)
      (h : Expression l (t :: input) n rest) :
      Body l returnType (t :: input) (.block [.returning n t.line] t.line) rest
  | statement {l : Nat} {returnType : String} {t : Token Kind} {input rest : Tokens} {n : Node}
      (result : returnType = "void" ∨ t.kind = .return) (ahead : t.kind ≠ .leftBrace)
      (h : Statement l (t :: input) n rest) :
      Body l returnType (t :: input) (.block [n] t.line) rest

/-- Statements up to the closing token, which is not taken. -/
inductive Statements : Nat → Kind → Tokens → List Node → Tokens → Prop where
  | done {l : Nat} {closing : Kind} {t : Token Kind} {rest : Tokens} (closes : t.kind = closing) :
      Statements l closing (t :: rest) [] (t :: rest)
  | semicolon {l : Nat} {closing : Kind} {t : Token Kind} {input rest : Tokens}
      {nodes : List Node} (separates : t.kind = .semicolon)
      (more : Statements l closing input nodes rest) : Statements l closing (t :: input) nodes rest
  | statement {l : Nat} {closing : Kind} {t u : Token Kind} {input mid rest : Tokens} {n : Node}
      {nodes : List Node} (head : t.kind ≠ .semicolon ∧ t.kind ≠ closing)
      (first : Statement l (t :: input) n (u :: mid))
      (separated : u.kind = .semicolon ∨ u.kind = closing ∨
        EndsInBrace (t :: input) n (u :: mid))
      (more : Statements l closing (u :: mid) nodes rest) :
      Statements l closing (t :: input) (n :: nodes) rest

end

/-- A whole text: statements and then its end. The tree has the line of its first token. -/
inductive Unit : Nat → Tokens → Node → Prop where
  | statements {l : Nat} {t last : Token Kind} {input : Tokens} {nodes : List Node}
      (h : Statements l .endOfText (t :: input) nodes [last]) :
      Unit l (t :: input) (.block nodes t.line)

/-! ### What a derivation takes -/

/-- The tokens up to `rest` are taken, and the end of the text is not among them. -/
def Takes (input rest : Tokens) : Prop :=
  ∃ taken, input = taken ++ rest ∧ ∀ t ∈ taken, t.kind ≠ .endOfText

namespace Takes

theorem refl (rest : Tokens) : Takes rest rest :=
  ⟨[], rfl, by simp⟩

theorem trans {a b c : Tokens} (hab : Takes a b) (hbc : Takes b c) : Takes a c := by
  obtain ⟨s, rfl, hs⟩ := hab
  obtain ⟨t, rfl, ht⟩ := hbc
  refine ⟨s ++ t, (List.append_assoc s t c).symm, ?_⟩
  intro u hu
  rcases List.mem_append.mp hu with hu | hu
  · exact hs u hu
  · exact ht u hu

theorem cons {t : Token Kind} {input rest : Tokens} (ht : t.kind ≠ .endOfText)
    (h : Takes input rest) : Takes (t :: input) rest := by
  obtain ⟨taken, rfl, htaken⟩ := h
  refine ⟨t :: taken, rfl, ?_⟩
  intro u hu
  rcases List.mem_cons.mp hu with rfl | hu
  · exact ht
  · exact htaken u hu

theorem one {t : Token Kind} {rest : Tokens} (ht : t.kind ≠ .endOfText) : Takes (t :: rest) rest :=
  (refl rest).cons ht

end Takes

theorem Named.not_end {t : Token Kind} {name : String} (h : Named t name) :
    t.kind ≠ .endOfText := by
  rw [h.1]
  decide

theorem operator_not_end {tier : Tier} {kind : Kind} {op : BinaryOperator}
    (h : tier.operator? kind = some op) : kind ≠ .endOfText := by
  rintro rfl
  cases tier <;> cases h

theorem literal_not_end {t : Token Kind} {value : Value} (h : literal? t = some value) :
    t.kind ≠ .endOfText := by
  intro hkind
  simp [literal?, hkind] at h

mutual

theorem Expression.takes {l : Nat} {input rest : Tokens} {n : Node} :
    Expression l input n rest → Takes input rest
  | .sum h => h.takes

theorem Chain.takes {tier : Tier} {l : Nat} {input rest : Tokens} {n : Node} :
    Chain tier l input n rest → Takes input rest
  | .operands first more => first.takes.trans more.takes

theorem Operand.takes {tier : Tier} {l : Nat} {input rest : Tokens} {n : Node} :
    Operand tier l input n rest → Takes input rest
  | .product h => h.takes
  | .unary h => h.takes

theorem Folds.takes {tier : Tier} {l : Nat} {left n : Node} {input rest : Tokens} :
    Folds tier l left input n rest → Takes input rest
  | .stop _ => .refl _
  | .fold operator operand more =>
    (operand.takes.trans more.takes).cons (operator_not_end operator)

theorem Unary.takes {l : Nat} {input rest : Tokens} {n : Node} :
    Unary l input n rest → Takes input rest
  | .negation minus operand => operand.takes.cons (by simp [minus])
  | .primary h => h.takes

theorem Primary.takes {l : Nat} {input rest : Tokens} {n : Node} :
    Primary l input n rest → Takes input rest
  | .call named opens arguments => (arguments.takes.cons (by simp [opens])).cons named.not_end
  | .variable named _ => .one named.not_end
  | .literal spells => .one (literal_not_end spells)
  | .parens opens inner closes =>
    (inner.takes.trans (.one (by simp [closes]))).cons (by simp [opens])

theorem Arguments.takes {l : Nat} {input rest : Tokens} {args : List Node} :
    Arguments l input args rest → Takes input rest
  | .none closes => .one (by simp [closes])
  | .some h => h.takes

theorem ArgumentList.takes {l : Nat} {input rest : Tokens} {args : List Node} :
    ArgumentList l input args rest → Takes input rest
  | .last item closes => item.takes.trans (.one (by simp [closes]))
  | .more item separates others =>
    item.takes.trans (others.takes.cons (by simp [separates]))

end

theorem Names.takes {input rest : Tokens} {names : List String} (h : Names input names rest) :
    Takes input rest := by
  induction h with
  | last named _ => exact .one named.not_end
  | more named separates _ ih => exact (ih.cons (by simp [separates])).cons named.not_end

theorem Declaration.takes {l line : Nat} {declared : DeclaredType} {input rest : Tokens} {n : Node}
    (h : Declaration l declared line input n rest) : Takes input rest := by
  cases h with
  | plain declares _ => exact declares.takes
  | initialized declares assigns initializer =>
    exact declares.takes.trans (initializer.takes.cons (by simp [assigns]))

theorem Parameter.takes {input rest : Tokens} {param : ConsoleScript.Parameter}
    (h : Parameter input param rest) : Takes input rest := by
  obtain ⟨type_named, named⟩ := h
  exact (Takes.one named.not_end).cons type_named.not_end

theorem ParameterList.takes {input rest : Tokens} {params : List ConsoleScript.Parameter}
    (h : ParameterList input params rest) : Takes input rest := by
  induction h with
  | last item closes => exact item.takes.trans (.one (by simp [closes]))
  | more item separates _ ih => exact item.takes.trans (ih.cons (by simp [separates]))

theorem Parameters.takes {input rest : Tokens} {params : List ConsoleScript.Parameter}
    (h : Parameters input params rest) : Takes input rest := by
  cases h with
  | none closes => exact .one (by simp [closes])
  | some h => exact h.takes

mutual

theorem Statement.takes {l : Nat} {input rest : Tokens} {n : Node} :
    Statement l input n rest → Takes input rest
  | .block h => h.takes
  | .inferred head h => h.takes.cons (by simp [head])
  | .call named opens arguments => (arguments.takes.cons (by simp [opens])).cons named.not_end
  | .assignment named assigns h => (h.takes.cons (by simp [assigns])).cons named.not_end
  | .declaration named _ h => h.takes.cons named.not_end
  | .lone named _ => .one named.not_end
  | .function head type_named named opens parameters h =>
    ((((parameters.takes.trans h.takes).cons (by simp [opens])).cons named.not_end).cons
      type_named.not_end).cons (by simp [head])
  | .typeOf head opens h closes =>
    ((h.takes.trans (.one (by simp [closes]))).cons (by simp [opens])).cons (by simp [head])
  | .returning head h => h.takes.cons (by simp [head])
  | .branch head h => h.takes.cons (by simp [head])
  | .loop head times h => (times.takes.trans h.takes).cons (by simp [head])
  | .print head h => h.takes.cons (by simp [head])
  | .expression _ h => h.takes
  | .empty _ => .refl _

theorem Branch.takes {l line : Nat} {input rest : Tokens} {n : Node} :
    Branch l line input n rest → Takes input rest
  | .single opens test closes h _ =>
    (test.takes.trans (h.takes.cons (by simp [closes]))).cons (by simp [opens])
  | .otherwise opens test closes h splits _ h' =>
    (test.takes.trans ((h.takes.trans (h'.takes.cons (by simp [splits]))).cons
      (by simp [closes]))).cons (by simp [opens])
  | .chained opens test closes h splits again h' =>
    (test.takes.trans ((h.takes.trans ((h'.takes.cons (by simp [again])).cons
      (by simp [splits]))).cons (by simp [closes]))).cons (by simp [opens])

theorem Block.takes {l : Nat} {input rest : Tokens} {n : Node} :
    Block l input n rest → Takes input rest
  | .braces opens h closes => (h.takes.trans (.one (by simp [closes]))).cons (by simp [opens])

theorem Body.takes {l : Nat} {returnType : String} {input rest : Tokens} {n : Node} :
    Body l returnType input n rest → Takes input rest
  | .block h => h.takes
  | .expression _ _ h => h.takes
  | .statement _ _ h => h.takes

theorem Statements.takes {l : Nat} {closing : Kind} {input rest : Tokens} {nodes : List Node} :
    Statements l closing input nodes rest → Takes input rest
  | .done _ => .refl _
  | .semicolon separates more => more.takes.cons (by simp [separates])
  | .statement _ first _ more => first.takes.trans more.takes

end

/-! ### Expressions are never empty, and only empty statements are -/

theorem Takes.length_le {input rest : Tokens} (h : Takes input rest) :
    rest.length ≤ input.length := by
  obtain ⟨taken, rfl, _⟩ := h
  simp

theorem Takes.ne_nil {input rest : Tokens} (h : Takes input rest) (hrest : rest ≠ []) :
    input ≠ [] := by
  obtain ⟨taken, rfl, _⟩ := h
  exact List.append_ne_nil_of_right_ne_nil taken hrest

theorem Takes.length_lt_cons {t : Token Kind} {input rest : Tokens} (h : Takes input rest) :
    rest.length < (t :: input).length :=
  Nat.lt_succ_of_le h.length_le

theorem Primary.length_lt {l : Nat} {input rest : Tokens} {n : Node} :
    Primary l input n rest → rest.length < input.length
  | .call _ opens arguments => (arguments.takes.cons (by simp [opens])).length_lt_cons
  | .variable _ _ => (Takes.refl rest).length_lt_cons
  | .literal _ => (Takes.refl rest).length_lt_cons
  | .parens _ inner closes => (inner.takes.trans (.one (by simp [closes]))).length_lt_cons

theorem Unary.length_lt {l : Nat} {input rest : Tokens} {n : Node} (h : Unary l input n rest) :
    rest.length < input.length := by
  cases h with
  | negation minus operand => exact operand.takes.length_lt_cons
  | primary h => exact h.length_lt

mutual

theorem Chain.length_lt {tier : Tier} {l : Nat} {input rest : Tokens} {n : Node} :
    Chain tier l input n rest → rest.length < input.length
  | .operands first more => Nat.lt_of_le_of_lt more.takes.length_le first.length_lt

theorem Operand.length_lt {tier : Tier} {l : Nat} {input rest : Tokens} {n : Node} :
    Operand tier l input n rest → rest.length < input.length
  | .product h => h.length_lt
  | .unary h => h.length_lt

end

theorem Expression.length_lt {l : Nat} {input rest : Tokens} {n : Node}
    (h : Expression l input n rest) : rest.length < input.length := by
  cases h with
  | sum h => exact h.length_lt

theorem Statement.length_lt_or {l : Nat} {input rest : Tokens} {n : Node}
    (h : Statement l input n rest) :
    rest.length < input.length ∨ rest = input ∧ n.isNoOp = true := by
  cases h with
  | block h =>
    cases h with
    | braces opens h closes => exact .inl (h.takes.trans (.one (by simp [closes]))).length_lt_cons
  | inferred head h => exact .inl h.takes.length_lt_cons
  | call named opens arguments => exact .inl (arguments.takes.cons (by simp [opens])).length_lt_cons
  | assignment named assigns h => exact .inl (h.takes.cons (by simp [assigns])).length_lt_cons
  | declaration named ahead h => exact .inl h.takes.length_lt_cons
  | lone named ahead => exact .inl (Takes.refl rest).length_lt_cons
  | function head type_named named opens parameters h =>
    exact .inl ((((parameters.takes.trans h.takes).cons (by simp [opens])).cons named.not_end).cons
      type_named.not_end).length_lt_cons
  | typeOf head opens h closes =>
    exact .inl ((h.takes.trans (.one (by simp [closes]))).cons (by simp [opens])).length_lt_cons
  | returning head h => exact .inl h.takes.length_lt_cons
  | branch head h => exact .inl h.takes.length_lt_cons
  | loop head times h => exact .inl (times.takes.trans h.takes).length_lt_cons
  | print head h => exact .inl h.takes.length_lt_cons
  | expression head h => exact .inl h.length_lt
  | empty ahead => exact .inr ⟨rfl, rfl⟩

theorem Statements.closing {l : Nat} {closing : Kind} {input rest : Tokens} {nodes : List Node} :
    Statements l closing input nodes rest → ∃ t behind, rest = t :: behind ∧ t.kind = closing
  | .done closes => ⟨_, _, rfl, closes⟩
  | .semicolon _ more => more.closing
  | .statement _ _ _ more => more.closing

/-- The end of the text is the last token of a unit, and no other. -/
theorem Unit.ends {l : Nat} {input : Tokens} {n : Node} (h : Unit l input n) :
    ∃ ts last, input = ts ++ [last] ∧ last.kind = .endOfText ∧
      ∀ t ∈ ts, t.kind ≠ .endOfText := by
  cases h with
  | @statements t last input nodes h =>
    obtain ⟨ts, hts, hnone⟩ := h.takes
    obtain ⟨u, behind, hu, hend⟩ := h.closing
    cases hu
    exact ⟨ts, last, hts, hend, hnone⟩

end ConsoleScript.Derivation
