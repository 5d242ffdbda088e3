/-
# Writing YAML

Mappings and sequences are written as blocks with two spaces a level; a
sequence inside a mapping is not indented. A text is plain where it reads
back as itself, a text of several lines becomes a literal block, and
everything else is quoted.

Key definitions: `Yaml.scalarText`, `Yaml.render`.
-/
import Docblock.Yaml.Basic
import Docblock.Yaml.Place
import Docblock.Json.Printer
import Docblock.Text.Blank

namespace Docblock
namespace Yaml

/-- The written form of a whole number. -/
def renderInt (n : Int) : String := Json.renderInt n

/-- Exponents show no plus sign. -/
def realLayout : Binary64.Layout := { Binary64.layout with plusSign := "" }

/-- The written form of a number. -/
def renderReal (x : Binary64) : String :=
  let sign := if x.negative then "-" else ""
  if x.isZero then sign ++ "0.0"
  else
    let s := x.shortest
    let digits := Binary64.digitsOf s.digits
    let exponent : Int := s.power + digits.length - 1
    sign ++ (if realLayout.leastPlain ≤ exponent && exponent < realLayout.pastPlain
      then Binary64.renderPlain realLayout digits (exponent + 1)
      else Binary64.renderExponent realLayout digits exponent)

/-! ### The forms of a text -/

/-- Whether a character can be written as it is. -/
def isPrintable (c : Char) : Bool :=
  let n := c.toNat
  n == 10 || (0x20 ≤ n && n ≤ 0x7E) || (0xA0 ≤ n && n ≤ 0xFFFD && n != 0xFEFF) || 0x10000 ≤ n

/-- Whether a text may stand without quotes, judged character by character. -/
def hasPlainMarks (cs : List Char) : Bool :=
  let gap (c : Option Char) : Bool := c.all fun c => isBlank c || isBreak c
  let rec scan (before : Option Char) : List Char → Bool
    | [] => false
    | c :: rest =>
      let marks := match before with
        | none => "#,[]\x7b\x7d&*!|>'\"%@\x60".toList.contains c ||
            ((c == '?' || c == ':' || c == '-') && gap rest.head?)
        | some b => (c == ':' && gap rest.head?) || (c == '#' && gap (some b))
      marks || scan (some c) rest
  cs.take 3 == ['-', '-', '-'] || cs.take 3 == ['.', '.', '.'] || scan none cs

/-- What decides the forms that a text can have. -/
structure Shape where
  multiline : Bool
  plain : Bool
  single : Bool
  literal : Bool

/-- Whether two neighbours satisfy the two tests. -/
def hasPair (first second : Char → Bool) : List Char → Bool
  | a :: b :: rest => (first a && second b) || hasPair first second (b :: rest)
  | _ => false

/-- The forms that a text can have. -/
def shapeOf (s : String) : Shape :=
  let cs := s.toList
  if cs.isEmpty then ⟨false, true, true, false⟩
  else
    let ends (p : Char → Bool) : Bool := cs.head?.any p || cs.getLast?.any p
    let space (c : Char) : Bool := c == ' '
    let breaks := cs.any isBreak
    let special := cs.any fun c => !isPrintable c
    let spaceBreak := hasPair space isBreak cs
    let breakSpace := hasPair isBreak space cs
    { multiline := breaks
      plain := !(ends space || ends isBreak || breakSpace || spaceBreak || special || breaks ||
        hasPlainMarks cs)
      single := !(breakSpace || spaceBreak || special)
      literal := !(cs.getLast?.any space || spaceBreak || special) }

/-- A text in single quotes. -/
def singleQuoted (s : String) : String := "'" ++ Text.replace "'" "''" s ++ "'"

/-- A hexadecimal number in capitals with a fixed number of digits. -/
def hexText (width n : Nat) : List Char :=
  ((List.range width).reverse.map fun i =>
    let d := n / Nat.pow 16 i % 16
    if d < 10 then Char.ofNat (48 + d) else Char.ofNat (55 + d))

/-- The written form of a character in double quotes. -/
def escapeChar (c : Char) : List Char :=
  let n := c.toNat
  if isPrintable c && !isBreak c && c != '"' && c != '\\' then [c]
  else match n with
    | 0 => ['\\', '0']
    | 7 => ['\\', 'a']
    | 8 => ['\\', 'b']
    | 9 => ['\\', 't']
    | 10 => ['\\', 'n']
    | 11 => ['\\', 'v']
    | 12 => ['\\', 'f']
    | 13 => ['\\', 'r']
    | 27 => ['\\', 'e']
    | 34 => ['\\', '"']
    | 92 => ['\\', '\\']
    | 0x85 => ['\\', 'N']
    | 0x2028 => ['\\', 'L']
    | 0x2029 => ['\\', 'P']
    | _ =>
      if n ≤ 0xFF then '\\' :: 'x' :: hexText 2 n
      else if n ≤ 0xFFFF then '\\' :: 'u' :: hexText 4 n
      else '\\' :: 'U' :: hexText 8 n

/-- A text in double quotes. -/
def doubleQuoted (s : String) : String :=
  "\"" ++ String.ofList (s.toList.flatMap escapeChar) ++ "\""

/-- The marks of a literal block: its indentation if the text starts with a
blank, and what happens to the line ends behind it. -/
def literalMarks (cs : List Char) : String :=
  let hint := if cs.head?.any fun c => c == ' ' || isBreak c then "2" else ""
  let chomp := match cs.reverse with
    | [] => "-"
    | [c] => if isBreak c then "+" else "-"
    | c :: d :: _ => if !isBreak c then "-" else if isBreak d then "+" else ""
  hint ++ chomp

/-- A text as a literal block at an indentation. -/
def literalBlock (indent : Nat) (s : String) : String :=
  let cs := s.toList
  let lines := Text.splitChars (· == '\n') cs
  -- the end of the last line is written by what follows
  let lines := if lines.getLast? == some [] then lines.dropLast else lines
  "|" ++ literalMarks cs ++ String.join (lines.map fun line =>
    "\n" ++ (if line.isEmpty then "" else String.ofList (List.replicate indent ' ' ++ line)))

/-- Words that older readers take for truth values. -/
def oldBooleans : List String :=
  ["y", "Y", "yes", "Yes", "YES", "n", "N", "no", "No", "NO", "on", "On", "ON", "off", "Off", "OFF"]

/-- Whether a plain form of the text would be read as something else. -/
def looksTyped (s : String) : Bool :=
  match ofPlain? s with
  | some (.str _) => isPaddedDigits s.toList || oldBooleans.contains s
  | _ => true

/-- A text as a scalar. `key` says that it stands before a colon. -/
def textScalar (key : Bool) (indent : Nat) (s : String) : String :=
  let shape := shapeOf s
  let quoted := if shape.single && !(key && shape.multiline) then singleQuoted s else doubleQuoted s
  if s.toList.contains '\n' then
    if shape.literal && !key then literalBlock indent s else doubleQuoted s
  else if looksTyped s then quoted
  else if shape.plain then s
  else quoted

/-- A value that is no collection. -/
def scalarText (key : Bool) (indent : Nat) : Yaml → String
  | .null => "null"
  | .bool b => if b then "true" else "false"
  | .int n => renderInt n
  | .real x => renderReal x
  | .infinity negative => if negative then "-.inf" else ".inf"
  | .notANumber => ".nan"
  | .str s => textScalar key indent s
  | .seq _ => "[]"
  | .map _ => "\x7b\x7d"

/-! ### Collections -/

/-- The start of a line. -/
def lineAt (indent : Nat) : String := String.ofList ('\n' :: List.replicate indent ' ')

/-- Whether a key is written before its colon on one line. -/
def isSimpleKey : Yaml → Bool
  | .seq items => items.isEmpty
  | .map entries => entries.isEmpty
  | .str s => s.length ≤ 128 && !(shapeOf s).multiline
  | _ => true

mutual

/-- A value behind a key whose mapping is at `indent`. -/
def afterKey (indent : Nat) : Yaml → String
  | .seq [] => " []"
  | .seq (x :: xs) => lineAt indent ++ itemsText indent (x :: xs)
  | .map [] => " \x7b\x7d"
  | .map (e :: es) => lineAt (indent + 2) ++ entriesText (indent + 2) (e :: es)
  | v => " " ++ scalarText false (indent + 2) v

/-- A value behind a dash; what follows its first line is at `indent`. -/
def afterDash (indent : Nat) : Yaml → String
  | .seq [] => " []"
  | .seq (x :: xs) => " " ++ itemsText indent (x :: xs)
  | .map [] => " \x7b\x7d"
  | .map (e :: es) => " " ++ entriesText indent (e :: es)
  | v => " " ++ scalarText false indent v

/-- The items of a sequence, one a line; the first line has begun. -/
def itemsText (indent : Nat) : List Yaml → String
  | [] => ""
  | [x] => "-" ++ afterDash (indent + 2) x
  | x :: y :: ys => "-" ++ afterDash (indent + 2) x ++ lineAt indent ++ itemsText indent (y :: ys)

/-- The entries of a mapping, one a line; the first line has begun. -/
def entriesText (indent : Nat) : List (Yaml × Yaml) → String
  | [] => ""
  | (k, v) :: rest =>
    (if isSimpleKey k then scalarText true indent k ++ ":" ++ afterKey indent v
      else "?" ++ afterDash (indent + 2) k ++ lineAt indent ++ ":" ++ afterDash (indent + 2) v) ++
    (if rest.isEmpty then "" else lineAt indent) ++ entriesText indent rest

end

/-- The value as a YAML text. -/
def render : Yaml → String
  | .seq (x :: xs) => itemsText 0 (x :: xs) ++ "\n"
  | .map (e :: es) => entriesText 0 (e :: es) ++ "\n"
  | v => scalarText false 2 v ++ "\n"

end Yaml
end Docblock
