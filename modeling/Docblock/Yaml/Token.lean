/-
# Tokens of a YAML text

The text is cut into tokens from left to right. Indentation is turned into
tokens that open and close blocks. A key is only known as such when its
colon is met, so a possible key keeps a note of its place and the tokens for
it are put in afterwards.

Key definitions: `Yaml.Token`, `Yaml.Scan`, `Yaml.Scan.next`, `Yaml.tokens?`.
-/
import Docblock.Yaml.Scalar

namespace Docblock
namespace Yaml

/-- A token. A scalar says whether it is plain. -/
inductive Token where
  | version
  | tagDirective (handle meaning : String)
  | documentStart
  | documentEnd
  | blockSeqStart
  | blockMapStart
  | blockEnd
  | flowSeqStart
  | flowSeqEnd
  | flowMapStart
  | flowMapEnd
  | blockEntry
  | flowEntry
  | key
  | value
  | alias (name : String)
  | anchor (name : String)
  | tag (handle suffix : String)
  | scalar (text : String) (plain : Bool)
  deriving DecidableEq, Repr

/-- A place where a key may have begun: the number of its first token. -/
structure KeySpot where
  required : Bool
  token : Nat
  line : Nat
  index : Nat
  column : Nat

/-- The state of the scan. Tokens stand in reverse order. -/
structure Scan where
  place : Place
  tokens : List Token := []
  indent : Int := -1
  indents : List Int := []
  /-- How many brackets are open. -/
  flow : Nat := 0
  /-- Whether a key may begin here. -/
  keyAllowed : Bool := true
  /-- The possible key of each open bracket, the innermost first, and of the
  block around them. -/
  keys : List (Option KeySpot) := [none]

namespace Scan

/-! ### Indentation and keys -/

/-- Adds a token at the end. -/
def push (s : Scan) (t : Token) : Scan := { s with tokens := t :: s.tokens }

/-- Adds tokens before the token with this number. -/
def insert (s : Scan) (number : Nat) (ts : List Token) : Scan :=
  let later := s.tokens.length - number
  { s with tokens := s.tokens.take later ++ ts.reverse ++ s.tokens.drop later }

/-- Closes the blocks that are indented deeper than the column. -/
def unroll (s : Scan) (column : Int) : Scan :=
  if s.flow > 0 then s
  else
    let rec close : List Int → Int → List Token → Scan
      | [], indent, ts => { s with tokens := ts, indent, indents := [] }
      | outer :: outers, indent, ts =>
        if indent > column then close outers outer (.blockEnd :: ts)
        else { s with tokens := ts, indent, indents := outer :: outers }
    close s.indents s.indent s.tokens

/-- Opens a block at the column if it is deeper than the current one. -/
def roll (s : Scan) (column : Nat) (number : Option Nat) (t : Token) : Scan :=
  if s.flow > 0 || (column : Int) ≤ s.indent then s
  else
    let s := { s with indents := s.indent :: s.indents, indent := column }
    match number with
    | some n => s.insert n [t]
    | none => s.push t

/-- Gives up the possible key here; fails if it had to be one. -/
def dropKey (s : Scan) : Option Scan :=
  match s.keys with
  | some spot :: keys => if spot.required then none else some { s with keys := none :: keys }
  | _ => some s

/-- Notes that a key may begin here. -/
def saveKey (s : Scan) : Option Scan :=
  if s.keyAllowed then
    s.dropKey.map fun s =>
      let spot : KeySpot := {
        required := s.flow == 0 && s.indent == s.place.column
        token := s.tokens.length
        line := s.place.line
        index := s.place.index
        column := s.place.column }
      { s with keys := some spot :: s.keys.drop 1 }
  else some s

/-- Gives up possible keys that are on an earlier line or too long ago. -/
def dropStale (s : Scan) : Option Scan :=
  let stale (k : KeySpot) : Bool := k.line < s.place.line || k.index + 1024 < s.place.index
  if s.keys.any fun k => k.any fun k => stale k && k.required then none
  else some { s with keys := s.keys.map fun k => k.filter fun k => !stale k }

/-! ### Between tokens -/

/-- Passes blanks, comments and line ends. -/
def toNext (s : Scan) : (fuel : Nat) → Scan
  | 0 => s
  | fuel + 1 =>
    let p := s.place
    match p.peek with
    | some c =>
      if c == ' ' || (c == '\t' && (s.flow > 0 || !s.keyAllowed)) ||
          (c.toNat == 0xFEFF && p.index == 0) then
        toNext { s with place := p.step } fuel
      else if c == '#' then
        toNext { s with place := (p.takeWhile fun c => !isBreak c).1 } fuel
      else if isBreak c then
        toNext { s with place := p.stepLine.1, keyAllowed := s.keyAllowed || s.flow == 0 } fuel
      else s
    | none => s

/-! ### The kinds of tokens -/

/-- A mark between documents. -/
def documentMark (s : Scan) (t : Token) : Option Scan :=
  (s.unroll (-1)).dropKey.map fun s =>
    { (s.push t) with keyAllowed := false, place := s.place.skip 3 }

/-- The characters of names behind `&`, `*` and in handles. -/
def isNameChar (c : Char) : Bool := c.isAlphanum || c == '_' || c == '-'

/-- A line that starts with `%`. -/
def directive (s : Scan) : Option Scan := do
  let s ← (s.unroll (-1)).dropKey
  let (p, line) := s.place.takeWhile fun c => !isBreak c
  let line := line.takeWhile (· != '#')
  let words := (Text.split ' ' (String.ofList line)).filter fun w => !w.isEmpty
  let s := { s with place := p, keyAllowed := false }
  match words with
  | ["%YAML", number] => if number == "1.1" || number == "1.2" then some (s.push .version) else none
  | ["%TAG", handle, meaning] => some (s.push (.tagDirective handle meaning))
  | _ => none

/-- An opening bracket. -/
def openFlow (s : Scan) (t : Token) : Option Scan :=
  s.saveKey.map fun s =>
    { (s.push t) with
      flow := s.flow + 1
      keys := none :: s.keys
      keyAllowed := true
      place := s.place.step }

/-- A closing bracket. -/
def closeFlow (s : Scan) (t : Token) : Option Scan :=
  s.dropKey.map fun s =>
    let s := s.push t
    { s with
      flow := s.flow - 1
      keys := if s.flow > 0 then s.keys.drop 1 else s.keys
      keyAllowed := false
      place := s.place.step }

/-- A comma. -/
def flowEntry (s : Scan) : Option Scan :=
  s.dropKey.map fun s => { (s.push .flowEntry) with keyAllowed := true, place := s.place.step }

/-- A dash of a sequence. -/
def blockEntry (s : Scan) : Option Scan :=
  if s.flow == 0 && !s.keyAllowed then none
  else
    (s.roll s.place.column none .blockSeqStart).dropKey.map fun s =>
      { (s.push .blockEntry) with keyAllowed := true, place := s.place.step }

/-- A question mark before a key. -/
def explicitKey (s : Scan) : Option Scan :=
  if s.flow == 0 && !s.keyAllowed then none
  else
    (s.roll s.place.column none .blockMapStart).dropKey.map fun s =>
      { (s.push .key) with keyAllowed := s.flow == 0, place := s.place.step }

/-- A colon: what stands before it is a key, if one could begin there. -/
def value (s : Scan) : Option Scan :=
  match s.keys with
  | some spot :: keys =>
    let s := { s with keys := none :: keys }
    let s := (s.insert spot.token [.key]).roll spot.column (some spot.token) .blockMapStart
    some { (s.push .value) with keyAllowed := false, place := s.place.step }
  | _ =>
    if s.flow == 0 && !s.keyAllowed then none
    else
      let s := s.roll s.place.column none .blockMapStart
      some { (s.push .value) with keyAllowed := s.flow == 0, place := s.place.step }

/-- A name behind `&` or `*`. -/
def named (s : Scan) (t : String → Token) : Option Scan := do
  let s ← s.saveKey
  let (p, name) := s.place.step.takeWhile isNameChar
  let ends := p.gapAt 0 || p.peek.any fun c => "?:,]\x7d%@\x60".toList.contains c
  if name.isEmpty || !ends then none
  else some { (s.push (t (String.ofList name))) with keyAllowed := false, place := p }

/-- The characters of a tag. -/
def isTagChar (c : Char) : Bool :=
  isNameChar c || ";/?:@&=+$.~*'()%".toList.contains c

/-- A tag. -/
def tag (s : Scan) : Option Scan := do
  let s ← s.saveKey
  let p := s.place.step
  let (p, handle, suffix) ←
    if p.sees '<' then
      let (p, uri) := p.step.takeWhile fun c => isTagChar c || c == '!' || c == ',' || c == '[' || c == ']'
      if uri.isEmpty || !p.sees '>' then none else some (p.step, "", String.ofList uri)
    else
      let (q, name) := p.takeWhile isNameChar
      if q.sees '!' then
        let (q, suffix) := q.step.takeWhile isTagChar
        if suffix.isEmpty then none
        else some (q, "!" ++ String.ofList name ++ "!", String.ofList suffix)
      else
        let (q, suffix) := p.takeWhile isTagChar
        some (q, "!", String.ofList suffix)
  if p.gapAt 0 || (s.flow > 0 && p.sees ',') then
    some { (s.push (.tag handle suffix)) with keyAllowed := false, place := p }
  else none

/-- A scalar with lines of its own. -/
def block (s : Scan) (literal : Bool) : Option Scan := do
  let s ← s.dropKey
  let (p, text) ← readBlock literal s.indent s.place
  return { (s.push (.scalar (String.ofList text) false)) with keyAllowed := true, place := p }

/-- A scalar in quotes. -/
def quoted (s : Scan) (double : Bool) : Option Scan := do
  let s ← s.saveKey
  let (p, text) ← readQuoted double s.place
  return { (s.push (.scalar (String.ofList text) false)) with keyAllowed := false, place := p }

/-- A scalar without quotes. -/
def plain (s : Scan) : Option Scan := do
  let s ← s.saveKey
  let (p, text, crossed) ← readPlain (s.flow > 0) (s.indent + 1).toNat s.place
  return { (s.push (.scalar (String.ofList text) true)) with keyAllowed := crossed, place := p }

/-- The characters with a meaning of their own at the start of a token. -/
def isIndicator (c : Char) : Bool :=
  "-?:,[]\x7b\x7d#&*!|>'\"%@\x60".toList.contains c

/-- Reads one token at its first character. -/
def token (s : Scan) (c : Char) : Option Scan :=
  let p := s.place
  let gap := p.gapAt 1
  if p.column == 0 && c == '%' then s.directive
  else if p.atDocumentMark then s.documentMark (if c == '-' then .documentStart else .documentEnd)
  else if c == '[' then s.openFlow .flowSeqStart
  else if c == '{' then s.openFlow .flowMapStart
  else if c == ']' then s.closeFlow .flowSeqEnd
  else if c == '}' then s.closeFlow .flowMapEnd
  else if c == ',' then s.flowEntry
  else if c == '-' && gap then s.blockEntry
  else if c == '?' && (s.flow > 0 || gap) then s.explicitKey
  else if c == ':' && (s.flow > 0 || gap) then s.value
  else if c == '*' then s.named .alias
  else if c == '&' then s.named .anchor
  else if c == '!' then s.tag
  else if c == '|' && s.flow == 0 then s.block true
  else if c == '>' && s.flow == 0 then s.block false
  else if c == '\'' then s.quoted false
  else if c == '"' then s.quoted true
  else if !(isBlank c || isIndicator c) || (c == '-' && !(p.peekAt 1).any isBlank) ||
      (s.flow == 0 && (c == '?' || c == ':') && !gap) then s.plain
  else none

/-- Passes what stands between tokens and reads one; says whether the text has
ended. -/
def next (s : Scan) : Option (Scan × Bool) := do
  let s ← (s.toNext (s.place.rest.length + 1)).dropStale
  let s := s.unroll s.place.column
  match s.place.peek with
  | none => return (← (s.unroll (-1)).dropKey, true)
  | some c => return (← s.token c, false)

/-- Reads all tokens. -/
def run : (fuel : Nat) → Scan → Option (List Token)
  | 0, _ => none
  | fuel + 1, s =>
    match s.next with
    | none => none
    | some (s, true) => some s.tokens.reverse
    | some (s, false) => run fuel s

end Scan

/-- The characters that may stand in a YAML text. -/
def isAllowed (c : Char) : Bool :=
  let n := c.toNat
  n == 9 || n == 10 || n == 13 || (0x20 ≤ n && n ≤ 0x7E) || n == 0x85 || (0xA0 ≤ n && n ≤ 0xFFFD) ||
    0x10000 ≤ n

/-- The tokens of a text. -/
def tokens? (s : String) : Option (List Token) :=
  if s.toList.all isAllowed then Scan.run (s.length + 2) { place := { rest := s.toList } }
  else none

end Yaml
end Docblock
