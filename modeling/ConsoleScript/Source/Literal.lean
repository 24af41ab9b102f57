import ConsoleScript.Decimal.Shortest
import ConsoleScript.Text.Quoted

/-!
# Literals

The values that a piece of source text spells out by itself. Integers are 64-bit words.
-/

namespace ConsoleScript

def int64? (n : Int) : Option Int64 :=
  if Int64.minValue.toInt ≤ n ∧ n ≤ Int64.maxValue.toInt then some (Int64.ofInt n) else none

inductive Literal where
  | int (n : Int64)
  | float (x : Float)
  | bool (b : Bool)
  | text (s : String)

def Literal.display : Literal → String
  | int n => toString n.toInt
  | float x => Decimal.text x
  | bool b => if b then "true" else "false"
  | text s => Text.quoted s

end ConsoleScript
