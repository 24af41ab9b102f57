import ConsoleScript.Source.Literal
import ConsoleScript.Value.Conversion

/-!
# Builtin functions

The functions behind the operators. Integer arithmetic is exact or fails, never wraps; mixed
arithmetic is done on floats. Each function checks its arguments itself.
-/

namespace ConsoleScript

def stringLimit : Nat := 16 * 1024 * 1024

def repeatOnto (done text : String) : Nat → String
  | 0 => done
  | count + 1 => repeatOnto (done ++ text) text count

def repeatText (text : String) (count : Nat) : String :=
  if text.isEmpty then "" else repeatOnto "" text count

theorem toList_repeatOnto (done text : String) (count : Nat) :
    (repeatOnto done text count).toList =
      done.toList ++ (List.replicate count text.toList).flatten := by
  induction count generalizing done with
  | zero => simp [repeatOnto]
  | succ count ih => simp [repeatOnto, ih, List.replicate_succ]

theorem toList_repeatText (text : String) (count : Nat) :
    (repeatText text count).toList = (List.replicate count text.toList).flatten := by
  unfold repeatText
  split
  · next h => simp_all
  · rw [toList_repeatOnto]
    rfl

def maxLength : Nat := UInt64.size - 1

/-- The length of a text repeated `count` times, in bytes. Where it is larger than any length it
counts as the largest. -/
def repeatedLength (text : String) (count : Nat) : Nat :=
  let length := text.utf8ByteSize * count
  if length ≤ maxLength then length else maxLength

theorem stringLimit_lt_repeatedLength (text : String) (count : Nat) :
    stringLimit < repeatedLength text count ↔ stringLimit < text.utf8ByteSize * count := by
  have hlimit : stringLimit < maxLength := by decide
  unfold repeatedLength
  dsimp only
  split
  · rfl
  · omega

inductive Builtin where
  | add
  | subtract
  | multiply
  | divide
  | negate
  | concatenate
  | repeat
deriving DecidableEq

namespace Builtin

def two (args : List Value) (line : Nat) : Except EvalError (Value × Value) :=
  match args with
  | [left, right] => .ok (left, right)
  | _ => .error (.operands (.notTwo args.length) line)

def arithmetic (exact : Int → Int → Int) (rounded : Float → Float → Float) (left right : Value)
    (line : Nat) : Except EvalError Value :=
  match left, right with
  | .int a, .int b =>
    match int64? (exact a.toInt b.toInt) with
    | some n => .ok (.int n)
    | none => .error (.overflow line)
  | .float a, .float b => .ok (.float (rounded a b))
  | .float a, .int b => return .float (rounded a (← floatOfInt b line))
  | .int a, .float b => return .float (rounded (← floatOfInt a line) b)
  | _, _ => .error (.operands (.notNumbers left.type right.type) line)

def isZero : Value → Bool
  | .int n => n = 0
  | .float x => x == 0.0
  | _ => false

def checked (text : String) (line : Nat) : Except EvalError Value :=
  if stringLimit < text.utf8ByteSize then .error (.stringTooLong stringLimit line)
  else .ok (.string text)

def join (left right : Value) (line : Nat) : Except EvalError Value :=
  match left with
  | .string s => checked (s ++ right.display) line
  | _ => .error (.operands (.notString left.type) line)

/-- A negative number of times is none. The length is checked before the string is made. -/
def repetition (left right : Value) (line : Nat) : Except EvalError Value :=
  match left, right with
  | .string s, .int n =>
    let count := n.toInt.toNat
    if stringLimit < repeatedLength s count then .error (.stringTooLong stringLimit line)
    else .ok (.string (repeatText s count))
  | .string _, _ => .error (.operands (.notRepeatable right.type) line)
  | _, _ => .error (.operands (.notString left.type) line)

def apply (f : Builtin) (args : List Value) (line : Nat) : Except EvalError Value :=
  match f with
  | add => do
    let (left, right) ← two args line
    arithmetic (· + ·) (· + ·) left right line
  | subtract => do
    let (left, right) ← two args line
    arithmetic (· - ·) (· - ·) left right line
  | multiply => do
    let (left, right) ← two args line
    arithmetic (· * ·) (· * ·) left right line
  | divide => do
    let (left, right) ← two args line
    if isZero right then throw (.divisionByZero line)
    arithmetic Int.tdiv (· / ·) left right line
  | concatenate => do
    let (left, right) ← two args line
    join left right line
  | .repeat => do
    let (left, right) ← two args line
    repetition left right line
  | negate =>
    match args with
    | [.int n] =>
      match int64? (-n.toInt) with
      | some m => .ok (.int m)
      | none => .error (.overflow line)
    | [.float x] => .ok (.float (-x))
    | _ => .error (.operands .notOneNumber line)

end Builtin

end ConsoleScript
