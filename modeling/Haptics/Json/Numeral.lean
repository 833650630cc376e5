/-!
# Numerals

A number in a text is its digits: a sign, the digits of the whole part, perhaps those of a fraction,
and perhaps a power of ten. It is read in one of two ways.

* A whole number of at most 64 bits is itself.
* Any other numeral is a double: the leading digits that fit 64 bits, as a double, times or over the
  power of ten that puts the point where it belongs, rounding at each operation. A numeral beyond
  the doubles has no value.

`Numeral.toInt?` gives whole numbers: a whole numeral of 64 signed bits as it is, any other number
cut towards zero and then to that range. `Numeral.hundredths?` gives a hundred times the value in
the same way.
-/

namespace Haptics.Json

/-- A number as it is written. -/
structure Numeral where
  /-- Whether it starts with a minus sign. -/
  negative : Bool
  /-- The digits of the whole part. -/
  whole : List Nat
  /-- The digits behind the point; none without a point. -/
  fraction : List Nat := []
  /-- The power of ten behind an `e`. -/
  exponent : Option Int := none
  deriving DecidableEq

namespace Numeral

/-- The number that some decimal digits stand for. -/
def digitsValue (digits : List Nat) : Nat :=
  digits.foldl (fun n d => 10 * n + d) 0

/-- The smallest number of 64 signed bits. -/
def minInt64 : Int := -9223372036854775808

/-- The largest number of 64 signed bits. -/
def maxInt64 : Int := 9223372036854775807

/-- Whether there is neither a point nor an exponent. -/
def isWhole (n : Numeral) : Bool :=
  n.fraction.isEmpty && n.exponent.isNone

/-- The number a whole numeral stands for. -/
def wholeValue (n : Numeral) : Int :=
  if n.negative then -(digitsValue n.whole : Int) else digitsValue n.whole

/-- The leading digits that fit 64 bits, as a number, and how many digits were left over. -/
def significand : Nat → List Nat → Nat × Nat
  | n, [] => (n, 0)
  | n, d :: rest =>
    if 10 * n + d < 18446744073709551616 then significand (10 * n + d) rest
    else (n, rest.length + 1)

/-- Divides a double by a power of ten, in steps that a double can hold. -/
def divideByPower (x : Float) (power : Nat) : Float :=
  if power ≤ 308 then x / Float.ofScientific 1 false power
  else if x == 0 then x
  else divideByPower (x / Float.ofScientific 1 false 308) (power - 308)
termination_by power
decreasing_by omega

/-- Multiplies a double by a power of ten; none if the result is beyond the doubles. -/
def multiplyByPower (x : Float) (power : Nat) : Option Float :=
  if power ≤ 308 then
    let y := x * Float.ofScientific 1 false power
    if y.isInf then none else some y
  else if x == 0 then some x
  else none

/-- A double scaled by a power of ten; none if the result is beyond the doubles. -/
def scale (x : Float) (power : Int) : Option Float :=
  if 0 ≤ power then multiplyByPower x power.toNat
  else some (divideByPower x (-power).toNat)

/-- The numeral as a double, without its sign; none if it is beyond the doubles. Digits that were
left over count as places of the whole part, and are dropped from the fraction. -/
def magnitude? (n : Numeral) : Option Float :=
  let (whole, dropped) := significand 0 n.whole
  let (lead, left) := significand whole n.fraction
  let places := n.fraction.length - left
  scale (UInt64.ofNat lead).toFloat ((dropped : Int) - places + n.exponent.getD 0)

/-- The numeral as a double. -/
def toFloat? (n : Numeral) : Option Float :=
  n.magnitude?.map fun x => if n.negative then -x else x

/-- A double cut towards zero, and then to 64 signed bits. -/
def truncate (x : Float) : Int := x.toInt64.toInt

/-- The numeral as a whole number. -/
def toInt? (n : Numeral) : Option Int :=
  if n.isWhole ∧ minInt64 ≤ n.wholeValue ∧ n.wholeValue ≤ maxInt64 then some n.wholeValue
  else n.toFloat?.map truncate

/-- A hundred times the numeral, as a whole number. -/
def hundredths? (n : Numeral) : Option Int :=
  n.toFloat?.map fun x => truncate (x * 100)

/-- A whole numeral of 64 signed bits is read as it is. -/
theorem toInt?_of_isWhole {n : Numeral} (h : n.isWhole = true) (lo : minInt64 ≤ n.wholeValue)
    (hi : n.wholeValue ≤ maxInt64) : n.toInt? = some n.wholeValue := by
  simp [toInt?, h, lo, hi]

end Numeral

end Haptics.Json
