import ConsoleScript.Decimal.Nearest

/-!
# The shortest decimal of a double

A finite double `m * 2 ^ q` is written with the fewest digits that read back as it, and of those
with the digits nearest to it. All arithmetic is on naturals, in quarters of the last place.
-/

namespace ConsoleScript.Decimal

structure Scaled where
  digits : Nat
  exponent : Int

/-- The fractions that bound a positive double, with the double itself in between. All three are
numerators over `den`. A decimal reads back as the double if it lies between `low` and `high`,
and on one of them only if `closed`. -/
structure Interval where
  low : Nat
  value : Nat
  high : Nat
  den : Nat
  closed : Bool

def implicitBit : Nat := 0x10000000000000

/-- The decimals that read back as the positive double with these bits. Below a power of two the
doubles lie twice as dense, so the lower bound is nearer there. -/
def Interval.ofBits (bits : Nat) : Interval :=
  let biased := bits / implicitBit
  let fraction := bits % implicitBit
  let mantissa := if biased = 0 then fraction else fraction + implicitBit
  let exponent : Int := (max biased 1 : Nat) - 1077
  let below := if fraction = 0 && 1 < biased then 1 else 2
  { low := (4 * mantissa - below) <<< exponent.toNat
    value := (4 * mantissa) <<< exponent.toNat
    high := (4 * mantissa + 2) <<< exponent.toNat
    den := 1 <<< (-exponent).toNat
    closed := mantissa % 2 = 0 }

/-- The least power of ten above a positive fraction that is not itself a power of ten below one. -/
def magnitude (num den : Nat) : Int :=
  if den ≤ num then ((Nat.toDigits 10 (num / den)).length : Int)
  else 1 - ((Nat.toDigits 10 (den / num)).length : Int)

namespace Interval

def accepts (i : Interval) (s : Scaled) : Bool :=
  let point := s.digits * Nat.pow 10 s.exponent.toNat * i.den
  let scale := Nat.pow 10 (-s.exponent).toNat
  if i.closed then i.low * scale ≤ point && point ≤ i.high * scale
  else i.low * scale < point && point < i.high * scale

/-- The neighbour of the value on the grid of multiples of `10 ^ exponent` that reads back, if there
is one. Of two the nearer is taken, and the larger in a tie. -/
def onGrid (i : Interval) (exponent : Int) : Option Scaled :=
  let num := i.value * Nat.pow 10 (-exponent).toNat
  let den := i.den * Nat.pow 10 exponent.toNat
  let lower : Scaled := ⟨num / den, exponent⟩
  let upper : Scaled := ⟨num / den + 1, exponent⟩
  match i.accepts lower, i.accepts upper with
  | true, true => if 2 * (num % den) < den then some lower else some upper
  | true, false => some lower
  | false, true => some upper
  | false, false => none

/-- The decimal on the first of ever finer grids that has one reading back. Seventeen digits always
suffice. -/
def shortest (i : Interval) : Scaled :=
  let top := magnitude i.value i.den
  ((List.range 17).findSome? fun (n : Nat) => i.onGrid (top - (n + 1))).getD ⟨0, 0⟩

end Interval

/-- Removes the zeros at the end of the digits, which a carry into a new digit leaves behind. -/
def Scaled.trim : Nat → Scaled → Scaled
  | 0, s => s
  | n + 1, s => if s.digits % 10 = 0 then trim n ⟨s.digits / 10, s.exponent + 1⟩ else s

def Scaled.positional (s : Scaled) : String :=
  let digits := Nat.toDigits 10 s.digits
  if 0 ≤ s.exponent then String.ofList (digits ++ List.replicate s.exponent.toNat '0')
  else
    let places := (-s.exponent).toNat
    let padded := List.replicate (places + 1 - digits.length) '0' ++ digits
    let whole := padded.length - places
    String.ofList (padded.take whole ++ '.' :: padded.drop whole)

def magnitudeText (bits : Nat) : String :=
  if bits = 0 then "0"
  else if bits < infinityBits then ((Interval.ofBits bits).shortest.trim 17).positional
  else if bits = infinityBits then "inf"
  else "NaN"

def signBit : Nat := 0x8000000000000000

/-- The text of a double. A zero keeps its sign, and what is not a number has none. -/
def text (x : Float) : String :=
  let bits := x.toBits.toNat
  let magnitude := bits % signBit
  if signBit ≤ bits && magnitude ≤ infinityBits then "-" ++ magnitudeText magnitude
  else magnitudeText magnitude

end ConsoleScript.Decimal
