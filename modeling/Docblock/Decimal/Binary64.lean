/-
# Numbers with 53 binary digits

A finite double as an exact value: a sign and `mantissa · 2 ^ exponent`. All
arithmetic is on natural numbers; a quotient is rounded to the nearest
double, a tie to the even mantissa.

Key definitions: `Binary64`, `Binary64.ofRatio`, `Binary64.ofDecimal`,
`Binary64.ofScaled`.
-/

namespace Docblock

/-- A finite double: `mantissa · 2 ^ exponent` with a sign of its own, so zero
has two forms. The mantissa is below `2 ^ 53`, and at least `2 ^ 52` unless
the exponent is the least one. -/
structure Binary64 where
  negative : Bool
  mantissa : Nat
  exponent : Int
  deriving DecidableEq, Repr

namespace Binary64

/-- The least exponent of a double. -/
def minExponent : Int := -1074

/-- The greatest exponent of a double. -/
def maxExponent : Int := 971

/-- Zero with a sign. -/
def zero (negative : Bool) : Binary64 := ⟨negative, 0, minExponent⟩

/-- Whether the number is zero, of either sign. -/
def isZero (x : Binary64) : Bool := x.mantissa == 0

/-- The quotient rounded to the nearest whole number, a tie to the even one. -/
def divNearest (num den : Nat) : Nat :=
  let q := num / den
  let r := num % den
  if 2 * r < den then q
  else if den < 2 * r then q + 1
  else q + q % 2

/-- `num / den` counted in units of `2 ^ e`, rounded. -/
def unitsOf (num den : Nat) (e : Int) : Nat :=
  if 0 ≤ e then divNearest num (den * Nat.pow 2 e.toNat)
  else divNearest (num * Nat.pow 2 (-e).toNat) den

/-- The exponent at which `num / den` has 53 binary digits before the point,
or the least exponent. -/
def exponentOf (num den : Nat) : Int :=
  let e : Int := (Nat.log2 num : Int) - Nat.log2 den - 52
  let short := if 0 ≤ e then num < den * Nat.pow 2 e.toNat * Nat.pow 2 52
    else num * Nat.pow 2 (-e).toNat < den * Nat.pow 2 52
  max (if short then e - 1 else e) minExponent

/-- The double nearest to `num / den`; none when it is beyond the greatest. -/
def ofRatio (negative : Bool) (num den : Nat) : Option Binary64 :=
  if num == 0 then some (zero negative)
  else
    let e := exponentOf num den
    let m := unitsOf num den e
    let (m, e) := if m == Nat.pow 2 53 then (Nat.pow 2 52, e + 1) else (m, e)
    if maxExponent < e then none else some ⟨negative, m, e⟩

/-- The number of decimal digits of a natural number, one for zero. -/
def digitCount (n : Nat) : Nat :=
  (Nat.toDigits 10 n).length

/-- The double nearest to `digits · 10 ^ power`; none when it is beyond the
greatest. Powers far out of range are answered without computing them. -/
def ofDecimal (negative : Bool) (digits : Nat) (power : Int) : Option Binary64 :=
  if digits == 0 then some (zero negative)
  else
    let size := power + digitCount digits
    if 400 < size then none
    else if size < -400 then some (zero negative)
    else if 0 ≤ power then ofRatio negative (digits * Nat.pow 10 power.toNat) 1
    else ofRatio negative digits (Nat.pow 10 (-power).toNat)

/-- The numerator and denominator of the magnitude. -/
def ratio (x : Binary64) : Nat × Nat :=
  if 0 ≤ x.exponent then (x.mantissa * Nat.pow 2 x.exponent.toNat, 1)
  else (x.mantissa, Nat.pow 2 (-x.exponent).toNat)

/-- The rounded quotient of two magnitudes, with the sign of the first. -/
def div (x y : Binary64) : Option Binary64 :=
  let (a, b) := x.ratio
  let (c, d) := y.ratio
  ofRatio x.negative (a * d) (b * c)

/-- The rounded product of two magnitudes, with the sign of the first. -/
def mul (x y : Binary64) : Option Binary64 :=
  let (a, b) := x.ratio
  let (c, d) := y.ratio
  ofRatio x.negative (a * c) (b * d)

/-- `digits · 10 ^ power` in two rounded steps: the digits become a double,
which is then multiplied or divided by the double nearest to the power of
ten. Powers below `10 ^ -308` divide in several steps, so the number of
steps is bounded by the fuel. -/
def scaleBy : (fuel : Nat) → Binary64 → (power : Int) → Option Binary64
  | 0, x, _ => some (zero x.negative)
  | fuel + 1, x, power =>
    if power.natAbs ≤ 308 then
      (ofDecimal false 1 power.natAbs).bind fun ten => if 0 ≤ power then x.mul ten else x.div ten
    else if x.isZero then some x
    else if 0 ≤ power then none
    else (ofDecimal false 1 308).bind fun ten => (x.div ten).bind fun y =>
      scaleBy fuel y (power + 308)

/-- The double that the digits and the power of ten give when each of them is
rounded before they are combined. -/
def ofScaled (negative : Bool) (digits : Nat) (power : Int) : Option Binary64 :=
  (ofRatio negative digits 1).bind fun x => scaleBy 8 x power

end Binary64
end Docblock
