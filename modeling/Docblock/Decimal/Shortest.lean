/-
# The fewest digits that read back

Between a double and each of its neighbours lies the point where rounding
changes; every decimal inside these two points reads back as the double.
For one digit, two digits and so on, the decimal grid of that many digits
has two points next to the double: the first grid with a point inside wins,
and of two such points the nearer.

Key definitions: `Shortest`, `Binary64.shortest`, `Binary64.render`.
-/
import Docblock.Decimal.Binary64

namespace Docblock

/-- The decimal `digits · 10 ^ power`. -/
structure Shortest where
  digits : Nat
  power : Int
  deriving DecidableEq, Repr

namespace Binary64

/-- The power of ten at or below `num / den`, both positive. -/
def floorLog10 (num den : Nat) : Int :=
  if den ≤ num then (digitCount (num / den) : Int) - 1
  else
    let q := den / num
    let t := digitCount q
    if q * num == den && q == Nat.pow 10 (t - 1) then -((t : Int) - 1) else -(t : Int)

/-- Compares `a · 2 ^ e` with `b · 10 ^ k`. -/
def compareScaled (a : Nat) (e : Int) (b : Nat) (k : Int) : Ordering :=
  compare (a * Nat.pow 2 e.toNat * Nat.pow 10 (-k).toNat) (b * Nat.pow 10 k.toNat * Nat.pow 2 (-e).toNat)

/-- Whether `b · 10 ^ k` rounds to the double. In units of a quarter of the
last place the double is `4 · mantissa`. -/
def readsBack (x : Binary64) (b : Nat) (k : Int) : Bool :=
  let e := x.exponent - 2
  let low := if x.mantissa == Nat.pow 2 52 && minExponent < x.exponent then 4 * x.mantissa - 1
    else 4 * x.mantissa - 2
  let high := 4 * x.mantissa + 2
  let below := compareScaled low e b k
  let above := compareScaled high e b k
  if x.mantissa % 2 == 0 then below != .gt && above != .lt else below == .lt && above == .gt

/-- The two points of the grid `10 ^ k` next to the double. -/
def gridBelow (x : Binary64) (k : Int) : Nat :=
  (x.mantissa * Nat.pow 2 x.exponent.toNat * Nat.pow 10 (-k).toNat) /
    (Nat.pow 10 k.toNat * Nat.pow 2 (-x.exponent).toNat)

/-- Tries grids of more and more digits. -/
def shortestFrom (x : Binary64) (top : Int) : (tries : Nat) → (count : Nat) → Shortest
  | 0, count => ⟨gridBelow x (top - count + 1), top - count + 1⟩
  | tries + 1, count =>
    let k := top - count + 1
    let d := gridBelow x k
    match readsBack x d k, readsBack x (d + 1) k with
    | true, false => ⟨d, k⟩
    | false, true => ⟨d + 1, k⟩
    | true, true =>
      -- the nearer one: the double against the middle of the two points
      match compareScaled (2 * x.mantissa) x.exponent (2 * d + 1) k with
      | .lt => ⟨d, k⟩
      | .gt => ⟨d + 1, k⟩
      | .eq => if d % 2 == 0 then ⟨d, k⟩ else ⟨d + 1, k⟩
    | false, false => shortestFrom x top tries (count + 1)

/-- Moves the zeros at the end of the digits into the power. -/
def dropZeros : (fuel : Nat) → Shortest → Shortest
  | 0, s => s
  | fuel + 1, s =>
    if s.digits != 0 && s.digits % 10 == 0 then dropZeros fuel ⟨s.digits / 10, s.power + 1⟩ else s

/-- The shortest decimal that reads back as the double. -/
def shortest (x : Binary64) : Shortest :=
  if x.isZero then ⟨0, 0⟩
  else
    let (num, den) := x.ratio
    dropZeros 20 (shortestFrom x (floorLog10 num den) 17 1)

/-! ### Written form -/

/-- How a decimal is laid out: positional notation for values of at least
`10 ^ leastPlain` and below `10 ^ pastPlain`, else one digit before the point
and an exponent. -/
structure Layout where
  leastPlain : Int
  pastPlain : Int
  wholeTail : String
  exponentMark : String
  plusSign : String

/-- Numbers are positional from `0.00001` to below `1e16`, whole ones keep
`.0`, and an exponent always shows its sign. -/
def layout : Layout := ⟨-5, 16, ".0", "e", "+"⟩

/-- The digits of a natural number. -/
def digitsOf (n : Nat) : List Char := Nat.toDigits 10 n

/-- A decimal with its point at `point` digits from the left. -/
def renderPlain (l : Layout) (digits : List Char) (point : Int) : String :=
  if point ≤ 0 then
    String.ofList ("0.".toList ++ List.replicate (-point).toNat '0' ++ digits)
  else if digits.length ≤ point.toNat then
    String.ofList (digits ++ List.replicate (point.toNat - digits.length) '0') ++ l.wholeTail
  else String.ofList (digits.take point.toNat ++ '.' :: digits.drop point.toNat)

/-- A decimal with one digit before the point and an exponent. -/
def renderExponent (l : Layout) (digits : List Char) (exponent : Int) : String :=
  let head := match digits with
    | [] => []
    | [d] => [d]
    | d :: ds => d :: '.' :: ds
  let sign := if exponent < 0 then "-" else l.plusSign
  String.ofList head ++ l.exponentMark ++ sign ++ String.ofList (digitsOf exponent.natAbs)

/-- The written form of a double. -/
def render (x : Binary64) : String :=
  let sign := if x.negative then "-" else ""
  if x.isZero then sign ++ "0" ++ layout.wholeTail
  else
    let s := x.shortest
    let digits := digitsOf s.digits
    let exponent : Int := s.power + digits.length - 1
    sign ++ (if layout.leastPlain ≤ exponent && exponent < layout.pastPlain
      then renderPlain layout digits (exponent + 1)
      else renderExponent layout digits exponent)

end Binary64
end Docblock
