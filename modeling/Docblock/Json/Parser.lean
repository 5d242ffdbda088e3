/-
# Reading JSON

A reader over characters. Each function returns what it read and the rest of
the text; values nest at most `maxDepth` deep, which also bounds the
recursion. A number without fraction and exponent is whole if it fits in 64
bits, and a double otherwise.

Key definitions: `Json.readValue`, `Json.parse?`, `Json.parseRepeated?`.
-/
import Docblock.Json.Basic

namespace Docblock
namespace Json

/-- Arrays and objects may be nested this deep. -/
def maxDepth : Nat := 127

/-- The blanks between tokens. -/
def isSpace (c : Char) : Bool :=
  c == ' ' || c == '\n' || c == '\t' || c == '\r'

/-- Skips blanks. -/
def skipSpace (cs : List Char) : List Char := cs.dropWhile isSpace

/-! ### Texts -/

/-- The value of a hexadecimal digit. -/
def hexValue? (c : Char) : Option Nat :=
  if c.isDigit then some (c.toNat - 48)
  else if 'a' ≤ c && c ≤ 'f' then some (c.toNat - 87)
  else if 'A' ≤ c && c ≤ 'F' then some (c.toNat - 55)
  else none

/-- The value of four hexadecimal digits. -/
def hex4? (a b c d : Char) : Option Nat := do
  return ((← hexValue? a) * 16 + (← hexValue? b)) * 256 + (← hexValue? c) * 16 + (← hexValue? d)

/-- The character of an escape with one letter. -/
def shortEscape? (c : Char) : Option Char :=
  match c with
  | '"' => some '"'
  | '\\' => some '\\'
  | '/' => some '/'
  | 'b' => some (Char.ofNat 8)
  | 'f' => some (Char.ofNat 12)
  | 'n' => some '\n'
  | 'r' => some '\r'
  | 't' => some '\t'
  | _ => none

/-- Reads a text after its opening quote. A code unit of a surrogate pair is
refused unless the other one follows. -/
def readText : List Char → Option (List Char × List Char)
  | [] => none
  | '"' :: rest => some ([], rest)
  | '\\' :: 'u' :: a :: b :: c :: d :: '\\' :: 'u' :: e :: f :: g :: h :: rest =>
    match hex4? a b c d with
    | none => none
    | some n =>
      if 0xD800 ≤ n && n < 0xDC00 then
        match hex4? e f g h with
        | none => none
        | some m =>
          if 0xDC00 ≤ m && m < 0xE000 then
            (readText rest).map fun (t, r) =>
              (Char.ofNat (0x10000 + (n - 0xD800) * 1024 + (m - 0xDC00)) :: t, r)
          else none
      else if 0xDC00 ≤ n && n < 0xE000 then none
      else (readText ('\\' :: 'u' :: e :: f :: g :: h :: rest)).map fun (t, r) =>
        (Char.ofNat n :: t, r)
  | '\\' :: 'u' :: a :: b :: c :: d :: rest =>
    match hex4? a b c d with
    | none => none
    | some n =>
      if 0xD800 ≤ n && n < 0xE000 then none
      else (readText rest).map fun (t, r) => (Char.ofNat n :: t, r)
  | '\\' :: c :: rest =>
    match shortEscape? c with
    | none => none
    | some e => (readText rest).map fun (t, r) => (e :: t, r)
  | c :: rest => if c.toNat < 32 then none else (readText rest).map fun (t, r) => (c :: t, r)

/-! ### Numbers -/

/-- The value of a run of digits. -/
def digitsValue (ds : List Char) : Nat :=
  ds.foldl (fun n d => n * 10 + (d.toNat - 48)) 0

/-- The digits that a 64-bit significand can take up, and how many digits are
left over. -/
def takeSignificand : Nat → List Char → Nat × Nat
  | n, [] => (n, 0)
  | n, d :: ds =>
    let m := n * 10 + (d.toNat - 48)
    if m < Nat.pow 2 64 then takeSignificand m ds else (n, ds.length + 1)

/-- The number with the given digits before and after the point and the given
power of ten. -/
def numberOf (negative : Bool) (whole fraction : List Char) (power : Int) : Option Number :=
  match takeSignificand 0 whole with
  | (n, 0) =>
    let (m, left) := takeSignificand n fraction
    let used := fraction.length - left
    (Binary64.ofScaled negative m (power - used)).map .real
  | (n, left) => (Binary64.ofScaled negative n (power + left)).map .real

/-- A whole number, if it fits in 64 bits, with or without sign. Negative zero
is a double. -/
def wholeNumber (negative : Bool) (digits : List Char) : Option Number :=
  let n := digitsValue digits
  if negative then
    if n != 0 && n ≤ Nat.pow 2 63 then some (.int (-n)) else numberOf true digits [] 0
  else if n < Nat.pow 2 64 then some (.int n) else numberOf false digits [] 0

/-- Reads an exponent, if there is one, and the rest. -/
def readExponent : List Char → Option (Option Int × List Char)
  | c :: rest =>
    if c == 'e' || c == 'E' then
      let (negative, rest) := match rest with
        | '-' :: r => (true, r)
        | '+' :: r => (false, r)
        | r => (false, r)
      match rest.takeWhile Char.isDigit with
      | [] => none
      | ds =>
        let n := min (digitsValue ds) 1000000
        some (some (if negative then -(n : Int) else n), rest.dropWhile Char.isDigit)
    else some (none, c :: rest)
  | [] => some (none, [])

/-- Reads the digits after a point, if there is one, and the rest. -/
def readFraction : List Char → Option (Option (List Char) × List Char)
  | '.' :: rest =>
    match rest.takeWhile Char.isDigit with
    | [] => none
    | ds => some (some ds, rest.dropWhile Char.isDigit)
  | rest => some (none, rest)

/-- Reads a number without its sign. -/
def readUnsigned (negative : Bool) (cs : List Char) : Option (Number × List Char) := do
  let whole := cs.takeWhile Char.isDigit
  if whole.isEmpty || (whole.length > 1 && whole.head? == some '0') then none
  else
    let (fraction, rest) ← readFraction (cs.dropWhile Char.isDigit)
    let (power, rest) ← readExponent rest
    match fraction, power with
    | none, none => return (← wholeNumber negative whole, rest)
    | _, _ => return (← numberOf negative whole (fraction.getD []) (power.getD 0), rest)

/-- Reads a number. -/
def readNumber : List Char → Option (Number × List Char)
  | '-' :: rest => readUnsigned true rest
  | cs => readUnsigned false cs

/-! ### Values -/

/-- Reads a fixed word. -/
def readWord (word : List Char) (value : Json) (cs : List Char) : Option (Json × List Char) :=
  if word.isPrefixOf cs then some (value, cs.drop word.length) else none

/-- Reads the elements of an array after its first element: a comma and an
element again and again, then the closing bracket. The fuel bounds the
number of elements. -/
def readElems (value : List Char → Option (Json × List Char)) :
    (fuel : Nat) → List Char → Option (List Json × List Char)
  | 0, _ => none
  | fuel + 1, cs =>
    match skipSpace cs with
    | ']' :: rest => some ([], rest)
    | ',' :: rest => do
      let (x, rest) ← value rest
      let (xs, rest) ← readElems value fuel rest
      return (x :: xs, rest)
    | _ => none

/-- Reads an entry of an object. -/
def readEntry (value : List Char → Option (Json × List Char)) (cs : List Char) :
    Option ((String × Json) × List Char) :=
  match skipSpace cs with
  | '"' :: rest => do
    let (key, rest) ← readText rest
    match skipSpace rest with
    | ':' :: rest => do
      let (v, rest) ← value rest
      return ((String.ofList key, v), rest)
    | _ => none
  | _ => none

/-- Reads the entries of an object after its first entry. -/
def readEntries (value : List Char → Option (Json × List Char)) :
    (fuel : Nat) → List Char → Option (List (String × Json) × List Char)
  | 0, _ => none
  | fuel + 1, cs =>
    match skipSpace cs with
    | '}' :: rest => some ([], rest)
    | ',' :: rest => do
      let (entry, rest) ← readEntry value rest
      let (entries, rest) ← readEntries value fuel rest
      return (entry :: entries, rest)
    | _ => none

/-- Reads one value, with `depth` levels of nesting left. The entries of an
object are put together by `gather`. -/
def readValue (gather : List (String × Json) → Fields) :
    (depth : Nat) → List Char → Option (Json × List Char)
  | depth, cs =>
    match skipSpace cs with
    | 'n' :: rest => readWord ['u', 'l', 'l'] .null rest
    | 't' :: rest => readWord ['r', 'u', 'e'] (.bool true) rest
    | 'f' :: rest => readWord ['a', 'l', 's', 'e'] (.bool false) rest
    | '"' :: rest => (readText rest).map fun (t, r) => (.str (String.ofList t), r)
    | '[' :: rest =>
      match depth with
      | 0 => none
      | depth + 1 =>
        match skipSpace rest with
        | ']' :: rest => some (.arr [], rest)
        | rest => do
          let (x, rest) ← readValue gather depth rest
          let (xs, rest) ← readElems (readValue gather depth) (rest.length + 1) rest
          return (.arr (x :: xs), rest)
    | '{' :: rest =>
      match depth with
      | 0 => none
      | depth + 1 =>
        match skipSpace rest with
        | '}' :: rest => some (.obj [], rest)
        | rest => do
          let (entry, rest) ← readEntry (readValue gather depth) rest
          let (entries, rest) ← readEntries (readValue gather depth) (rest.length + 1) rest
          return (.obj (gather (entry :: entries)), rest)
    | cs => (readNumber cs).map fun (n, r) => (.num n, r)

/-- The value that a text holds, if it holds one and nothing else. -/
def parseWith? (gather : List (String × Json) → Fields) (s : String) : Option Json :=
  match readValue gather maxDepth s.toList with
  | some (v, rest) => if (skipSpace rest).isEmpty then some v else none
  | none => none

/-- The value of a text. A key that stands in an object again has its first
place and its last value. -/
def parse? (s : String) : Option Json := parseWith? (Fields.setAll []) s

/-- The value of a text with all entries of objects, repeated keys included. -/
def parseRepeated? (s : String) : Option Json := parseWith? id s

end Json
end Docblock
