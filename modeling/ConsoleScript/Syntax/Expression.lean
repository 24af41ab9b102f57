import ConsoleScript.Syntax.Kind
import ConsoleScript.Syntax.Tree
import ConsoleScript.Syntax.Window

/-!
# The grammar of expressions

    expression := sum
    sum        := product (("+" | "-") product)*
    product    := unary (("*" | "/") unary)*
    unary      := "-" unary | primary
    primary    := identifier "(" (expression ("," expression)*)? ")" | identifier
                | literal | "(" expression ")"

Chains fold to the left, and every fold counts as a level of nesting until its chain ends. The
recursive rules take the number of levels that are left to them; at none they refuse to go deeper.
-/

namespace ConsoleScript.Grammar

open Parse

variable {σ α : Type} [TokenSource σ Kind]

def identifier : Parse σ Kind String := do
  let t ← consume .identifier
  match t.value with
  | some (.text name) => return name
  | _ => throw (.unexpected t.display t.line)

def commaSeparated (item : Parse σ Kind α) (closing : Kind) : Parse σ Kind (List α) := do
  if ← isAt closing then
    let _ ← advance
    return []
  else
    iterate (fun items => do
      let items := (← item) :: items
      if ← isAt .comma then
        let _ ← advance
        return .inl items
      else if ← isAt closing then
        let _ ← advance
        return .inr items.reverse
      else unexpected) []

def call (expression : Parse σ Kind Node) (name : String) (line : Nat) : Parse σ Kind Node := do
  let _ ← consume .leftParen
  return .call name (← commaSeparated expression .rightParen) line

def literal? (t : Token Kind) : Option Value :=
  match t.kind, t.value with
  | .null, _ => some .null
  | .true, _ => some (.bool true)
  | .false, _ => some (.bool false)
  | .integer, some value | .float, some value | .string, some value =>
    match value with
    | .int n => some (.int n)
    | .float x => some (.float x)
    | .bool b => some (.bool b)
    | .text s => some (.string s)
  | _, _ => none

/-- A name before a parenthesis is a call, so `f(x)` is never the variable `f` and then `(x)`. -/
def primary (expression : Parse σ Kind Node) : Parse σ Kind Node := do
  let t := (← get).current
  match t.kind with
  | .identifier =>
    let follower ← peek
    let name ← identifier
    if follower.kind = .leftParen then call expression name t.line
    else return .variable name t.line
  | .leftParen =>
    let _ ← advance
    let inner ← expression
    let _ ← consume .rightParen
    return inner
  | _ =>
    match literal? t with
    | some value =>
      let _ ← advance
      return .literal value t.line
    | none => unexpected

inductive Tier where
  | sum
  | product

namespace Tier

def operator? : Tier → Kind → Option BinaryOperator
  | sum, .plus => some .add
  | sum, .minus => some .subtract
  | product, .multiply => some .multiply
  | product, .divide => some .divide
  | _, _ => none

/-- Orders the rules by which one calls the other without taking a level. -/
def rank : Tier → Nat
  | sum => 4
  | product => 2

end Tier

mutual

def expression (levels : Nat) : Parse σ Kind Node :=
  match levels with
  | 0 => tooDeep
  | levels + 1 => nested (chain .sum levels)
termination_by 6 * levels
decreasing_by simp only [Tier.rank]; omega

def chain (tier : Tier) (levels : Nat) : Parse σ Kind Node := do
  fold tier levels (← operand tier levels)
termination_by 6 * levels + tier.rank + 1
decreasing_by all_goals cases tier <;> simp only [Tier.rank] <;> omega

def operand (tier : Tier) (levels : Nat) : Parse σ Kind Node :=
  match tier with
  | .sum => chain .product levels
  | .product => unary levels
termination_by 6 * levels + tier.rank
decreasing_by all_goals (simp only [Tier.rank]; omega)

def fold (tier : Tier) (levels : Nat) (left : Node) : Parse σ Kind Node := do
  let t := (← get).current
  match tier.operator? t.kind, levels with
  | none, _ => return left
  | some _, 0 => tooDeep
  | some op, levels + 1 =>
    enter
    let _ ← advance
    let right ← operand tier levels
    let result ← fold tier levels (.binary left op right t.line)
    leave 1
    return result
termination_by 6 * levels
decreasing_by
  · cases tier <;> simp only [Tier.rank] <;> omega
  · omega

def unary (levels : Nat) : Parse σ Kind Node := do
  let t := (← get).current
  if t.kind = .minus then
    let _ ← advance
    match levels with
    | 0 => tooDeep
    | levels + 1 => return .negation (← nested (unary levels)) t.line
  else primary (expression levels)
termination_by 6 * levels + 1

end

end ConsoleScript.Grammar
