/-
# YAML values

Interface documents are written in YAML. A value is read from it as data
first; as JSON, its keys become texts and its infinite numbers become null.

Key definitions: `Yaml`, `Yaml.ofPlain?`, `Yaml.same`.
-/
import Docblock.Json.Basic
import Docblock.Decimal.Shortest
import Docblock.Text.Cut

namespace Docblock

/-- A YAML value. -/
inductive Yaml where
  | null
  | bool (b : Bool)
  | int (n : Int)
  | real (x : Binary64)
  | infinity (negative : Bool)
  | notANumber
  | str (s : String)
  | seq (items : List Yaml)
  | map (entries : List (Yaml × Yaml))
  deriving Inhabited, Repr

namespace Yaml

mutual

/-- Equality of values; the order of entries counts. -/
def same : Yaml → Yaml → Bool
  | .null, .null => true
  | .bool a, .bool b => a == b
  | .int a, .int b => a == b
  | .real a, .real b => a == b
  | .infinity a, .infinity b => a == b
  | .notANumber, .notANumber => true
  | .str a, .str b => a == b
  | .seq xs, .seq ys => sameItems xs ys
  | .map xs, .map ys => sameEntries xs ys
  | _, _ => false

/-- `same` on sequences. -/
def sameItems : List Yaml → List Yaml → Bool
  | [], [] => true
  | x :: xs, y :: ys => same x y && sameItems xs ys
  | _, _ => false

/-- `same` on entries. -/
def sameEntries : List (Yaml × Yaml) → List (Yaml × Yaml) → Bool
  | [], [] => true
  | (k, x) :: xs, (l, y) :: ys => same k l && same x y && sameEntries xs ys
  | _, _ => false

end

/-! ### Plain scalars

A scalar without quotes is null, a truth value or a number if it has the
form of one, and a text otherwise. -/

/-- The digit value of a character in bases up to sixteen. -/
def digitValue? (c : Char) : Option Nat :=
  if c.isDigit then some (c.toNat - 48)
  else if 'a' ≤ c && c ≤ 'f' then some (c.toNat - 87)
  else if 'A' ≤ c && c ≤ 'F' then some (c.toNat - 55)
  else none

/-- The number that digits of a base stand for. -/
def natOfDigits? (base : Nat) : List Char → Option Nat
  | [] => none
  | ds => ds.foldlM (fun n c => (digitValue? c).bind fun d =>
      if d < base then some (n * base + d) else none) 0

/-- The magnitude of a whole number: with a mark for its base, or decimal. -/
def magnitude? : List Char → Option Nat
  | '0' :: 'x' :: ds => natOfDigits? 16 ds
  | '0' :: 'o' :: ds => natOfDigits? 8 ds
  | '0' :: 'b' :: ds => natOfDigits? 2 ds
  | ds => natOfDigits? 10 ds

/-- The text without one sign in front. -/
def dropSign : List Char → List Char
  | '-' :: cs => cs
  | '+' :: cs => cs
  | cs => cs

/-- Digits with a zero in front are no number. -/
def isPaddedDigits (cs : List Char) : Bool :=
  match dropSign cs with
  | '0' :: d :: ds => (d :: ds).all Char.isDigit
  | _ => false

/-- A whole number that fits in as many bits, with or without sign. -/
def wholeNumber? (bits : Nat) (cs : List Char) : Option Int :=
  if isPaddedDigits cs then none
  else match cs with
    | '-' :: ds =>
      (magnitude? ds).bind fun n => if n ≤ Nat.pow 2 (bits - 1) then some (-(n : Int)) else none
    | '+' :: ds => (magnitude? ds).bind fun n => if n < Nat.pow 2 bits then some (n : Int) else none
    | ds => (magnitude? ds).bind fun n => if n < Nat.pow 2 bits then some (n : Int) else none

/-- The exponent behind a number, if the text is one. -/
def exponent? : List Char → Option Int
  | [] => some 0
  | c :: cs =>
    if c == 'e' || c == 'E' then
      let (negative, ds) := match cs with
        | '-' :: ds => (true, ds)
        | '+' :: ds => (false, ds)
        | ds => (false, ds)
      (natOfDigits? 10 ds).map fun n =>
        let n := min n 100000
        if negative then -(n : Int) else n
    else none

/-- A finite decimal number. -/
def decimal? (cs : List Char) : Option Binary64 :=
  let negative := cs.head? == some '-'
  let cs := dropSign cs
  let whole := cs.takeWhile Char.isDigit
  let rest := cs.dropWhile Char.isDigit
  let (fraction, rest) := match rest with
    | '.' :: r => (r.takeWhile Char.isDigit, r.dropWhile Char.isDigit)
    | r => ([], r)
  if whole.isEmpty && fraction.isEmpty then none
  else do
    let power ← exponent? rest
    let digits ← natOfDigits? 10 (whole ++ fraction)
    Binary64.ofDecimal negative digits (power - fraction.length)

/-- A decimal number, an infinite one, or none at all. -/
def real? (s : String) : Option Yaml :=
  if [".inf", ".Inf", ".INF", "+.inf", "+.Inf", "+.INF"].contains s then some (.infinity false)
  else if ["-.inf", "-.Inf", "-.INF"].contains s then some (.infinity true)
  else if [".nan", ".NaN", ".NAN"].contains s then some .notANumber
  else (decimal? s.toList).map .real

/-- The value of a plain scalar that is no whole number. -/
def ofPlainWord (s : String) : Yaml :=
  if ["", "~", "null", "Null", "NULL"].contains s then .null
  else if ["true", "True", "TRUE"].contains s then .bool true
  else if ["false", "False", "FALSE"].contains s then .bool false
  else if isPaddedDigits s.toList then .str s
  else (real? s).getD (.str s)

/-- The value of a plain scalar. Whole numbers of more than 64 and at most 128
bits are refused; larger ones are decimal numbers. -/
def ofPlain? (s : String) : Option Yaml :=
  match wholeNumber? 64 s.toList with
  | some n => some (.int n)
  | none => if (wholeNumber? 128 s.toList).isSome then none else some (ofPlainWord s)

end Yaml
end Docblock
