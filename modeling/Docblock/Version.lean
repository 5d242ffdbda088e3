/-
# Versions

A version has three numbers, and may have pre-release and build
identifiers: `1.2.0-rc.1+build.5`. A pre-release comes before its release;
identifiers compare one by one, numbers before words. Texts that are no
versions compare as texts.

Key definitions: `Version`, `Version.parse?`, `Version.order`,
`Version.compareTexts`.
-/
import Docblock.Text.Blank
import Docblock.Text.Cut

namespace Docblock

/-- A version. -/
structure Version where
  major : Nat
  minor : Nat
  patch : Nat
  pre : List String
  build : List String
  deriving DecidableEq, Repr

namespace Version

/-! ### Reading -/

/-- Reads a number below `2 ^ 64` without leading zeros. -/
def readNumber (cs : List Char) : Option (Nat × List Char) :=
  let digits := cs.takeWhile Char.isDigit
  let n := digits.foldl (fun n d => n * 10 + (d.toNat - 48)) 0
  if digits.isEmpty || (digits.length > 1 && digits.head? == some '0') || n ≥ Nat.pow 2 64 then none
  else some (n, cs.dropWhile Char.isDigit)

/-- Reads a number and the point behind it. -/
def readNumberPoint (cs : List Char) : Option (Nat × List Char) :=
  match readNumber cs with
  | some (n, '.' :: rest) => some (n, rest)
  | _ => none

/-- The characters of identifiers and the points between them. -/
def isIdentifierChar (c : Char) : Bool :=
  c.isAlphanum || c == '-' || c == '.'

/-- Whether an identifier is a number with a zero in front. -/
def hasLeadingZero (id : List Char) : Bool :=
  id.length > 1 && id.all Char.isDigit && id.head? == some '0'

/-- Reads identifiers with points between them. Numbers with a zero in front
are refused unless `zeros` allows them. -/
def readIdentifiers (zeros : Bool) (cs : List Char) : Option (List String × List Char) :=
  let ids := Text.splitChars (· == '.') (cs.takeWhile isIdentifierChar)
  if ids.any fun id => id.isEmpty || (!zeros && hasLeadingZero id) then none
  else some (ids.map String.ofList, cs.dropWhile isIdentifierChar)

/-- Reads the pre-release identifiers, if there are any. -/
def readPre : List Char → Option (List String × List Char)
  | '-' :: rest => readIdentifiers false rest
  | rest => some ([], rest)

/-- Reads the build identifiers, if there are any. -/
def readBuild : List Char → Option (List String × List Char)
  | '+' :: rest => readIdentifiers true rest
  | rest => some ([], rest)

/-- Reads a version that fills the text. -/
def readChars (cs : List Char) : Option Version := do
  let (major, cs) ← readNumberPoint cs
  let (minor, cs) ← readNumberPoint cs
  let (patch, cs) ← readNumber cs
  let (pre, cs) ← readPre cs
  let (build, cs) ← readBuild cs
  if cs.isEmpty then some ⟨major, minor, patch, pre, build⟩ else none

/-- The text without one leading `=` and one leading `v`. -/
def dropMarks (cs : List Char) : List Char :=
  let cs := match cs with
    | '=' :: rest => rest
    | cs => cs
  match cs with
  | 'v' :: rest => rest
  | cs => cs

/-- The version that a text gives, blanks around it and a leading `=` or `v`
apart. -/
def parse? (s : String) : Option Version :=
  readChars (dropMarks (Text.stripBlanks s.toList))

/-- Whether a text gives a version. -/
def isValid (s : String) : Bool := (parse? s).isSome

/-! ### Order -/

/-- Whether an identifier is a number. -/
def isNumeric (id : List Char) : Bool := id.all Char.isDigit

/-- The order of two numbers given by their digits. -/
def compareDigits (a b : List Char) : Ordering :=
  (compare a.length b.length).then (Text.compareChars a b)

/-- The order of two numbers that may have zeros in front; of equal numbers
the one with fewer zeros comes first. -/
def compareNumerals (a b : List Char) : Ordering :=
  (compareDigits (a.dropWhile (· == '0')) (b.dropWhile (· == '0'))).then
    (compare a.length b.length)

/-- The order of two identifiers: numbers come before words. -/
def compareIdentifiers (numbers : List Char → List Char → Ordering) (a b : List Char) : Ordering :=
  match isNumeric a, isNumeric b with
  | false, true => .gt
  | true, false => .lt
  | false, false => Text.compareChars a b
  | true, true => numbers a b

/-- The order of two lists of identifiers: the first difference decides, and a
longer list comes after its beginnings. -/
def compareLists (numbers : List Char → List Char → Ordering) :
    List String → List String → Ordering
  | [], [] => .eq
  | [], _ :: _ => .lt
  | _ :: _, [] => .gt
  | a :: as, b :: bs =>
    (compareIdentifiers numbers a.toList b.toList).then (compareLists numbers as bs)

/-- The order of pre-releases: none at all comes last. -/
def comparePre (a b : List String) : Ordering :=
  match a, b with
  | [], [] => .eq
  | [], _ :: _ => .gt
  | _ :: _, [] => .lt
  | a, b => compareLists compareDigits a b

/-- The order of versions: number by number, then pre-release, then build. -/
def order (a b : Version) : Ordering :=
  (compare a.major b.major).then <| (compare a.minor b.minor).then <|
    (compare a.patch b.patch).then <| (comparePre a.pre b.pre).then <|
      compareLists compareNumerals a.build b.build

/-- The order of version texts: as versions if both are, else as texts. -/
def compareTexts (a b : String) : Ordering :=
  match parse? a, parse? b with
  | some v, some w => order v w
  | _, _ => Text.order a b

/-- Whether the first version text is at least the second. -/
def atLeast (a b : String) : Bool :=
  compareTexts a b != .lt

end Version
end Docblock
