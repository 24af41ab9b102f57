/-!
# The double nearest to a fraction

Reading a decimal number is exact arithmetic on a fraction of naturals followed by a single
rounding, so a long literal never suffers from rounding twice.
-/

namespace ConsoleScript.Decimal

def roundDiv (num den : Nat) : Nat :=
  let quotient := num / den
  let remainder := num % den
  if 2 * remainder < den then quotient
  else if den < 2 * remainder then quotient + 1
  -- A tie goes to the even neighbour.
  else quotient + quotient % 2

def scaleBinary (num den : Nat) (exponent : Int) : Nat × Nat :=
  if 0 ≤ exponent then (num, den <<< exponent.toNat) else (num <<< (-exponent).toNat, den)

/-- The exponent of the last place of the double nearest to a positive fraction: the one that
leaves 53 binary digits before the point, but never below the last place of subnormal numbers. -/
def lastPlace (num den : Nat) : Int :=
  let exponent : Int := (num.log2 : Int) - den.log2 - 52
  let (n, d) := scaleBinary num den exponent
  max (if n < d <<< 52 then exponent - 1 else exponent) (-1074)

def infinityBits : Nat := 0x7FF0000000000000

/-- The bits of the double nearest to `num / den`, a tie going to the even one. Fractions beyond the
largest finite double become infinity. -/
def nearestBits (num den : Nat) : Nat :=
  if num = 0 then 0
  else
    let place := lastPlace num den
    let (n, d) := scaleBinary num den place
    min ((place + 1074).toNat <<< 52 + roundDiv n d) infinityBits

def digitsValue (digits : List Char) : Nat :=
  digits.foldl (fun value digit => 10 * value + (digit.toNat - '0'.toNat)) 0

/-- The double nearest to the number whose digits before and after the point are given. There has
to be a digit on one of the two sides. -/
def ofDigits? (whole fraction : List Char) : Option Float :=
  if whole.isEmpty && fraction.isEmpty then none
  else
    let bits := nearestBits (digitsValue (whole ++ fraction)) (Nat.pow 10 fraction.length)
    some (Float.ofBits bits.toUInt64)

end ConsoleScript.Decimal
