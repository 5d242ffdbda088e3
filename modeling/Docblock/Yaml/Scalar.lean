/-
# Scalars in YAML

Plain scalars end where a mark of the structure could start; quoted ones at
their quote; block scalars where the indentation ends. Inside the first two a
single line end is a space, and further ones are kept.

Key definitions: `Yaml.readPlain`, `Yaml.readQuoted`, `Yaml.readBlock`.
-/
import Docblock.Yaml.Basic
import Docblock.Yaml.Place

namespace Docblock
namespace Yaml

/-! ### Gaps between the words of a scalar -/

/-- Blanks and line ends between two words: the blanks on the same line, the
first line end and the further ones. -/
structure Gap where
  blanks : List Char := []
  first : List Char := []
  more : List Char := []
  /-- Whether a line end was passed. -/
  crossed : Bool := false

/-- What a gap stands for. -/
def Gap.chars (g : Gap) : List Char :=
  if g.crossed then
    if g.first.head? == some '\n' then (if g.more.isEmpty then [' '] else g.more)
    else g.first ++ g.more
  else g.blanks

/-- Passes a gap. A tab in the indentation of a further line is refused when
`indent` gives the least column. -/
def readGap (indent : Option Nat) : (fuel : Nat) → Place → Gap → Option (Place × Gap)
  | 0, p, g => some (p, g)
  | fuel + 1, p, g =>
    match p.peek with
    | some c =>
      if isBlank c then
        if g.crossed && c == '\t' && indent.any (p.column < ·) then none
        else readGap indent fuel p.step (if g.crossed then g else { g with blanks := g.blanks ++ [c] })
      else if isBreak c then
        let (p, ends) := p.stepLine
        readGap indent fuel p
          (if g.crossed then { g with more := g.more ++ ends }
            else { g with blanks := [], first := ends, crossed := true })
      else some (p, g)
    | none => some (p, g)

/-! ### Plain scalars -/

/-- The characters that end a plain scalar inside brackets. -/
def isFlowMark (c : Char) : Bool :=
  c == ',' || c == '[' || c == ']' || c == '{' || c == '}'

/-- Reads a word of a plain scalar, last character first. -/
def readPlainWord (flow : Bool) : (fuel : Nat) → Place → List Char → Option (Place × List Char)
  | 0, p, word => some (p, word)
  | fuel + 1, p, word =>
    match p.peek with
    | none => some (p, word)
    | some c =>
      if isBlank c || isBreak c then some (p, word)
      else if flow && c == ':' && (p.peekAt 1).any (fun d => isFlowMark d || d == '?') then none
      else if (c == ':' && p.gapAt 1) || (flow && isFlowMark c) then some (p, word)
      else readPlainWord flow fuel p.step (c :: word)

/-- Reads the words of a plain scalar. `text` is what was read so far, last
character first; the result also says whether the gap at the end passed a
line end. -/
def readPlainWords (flow : Bool) (indent : Nat) :
    (fuel : Nat) → Place → Gap → (text : List Char) → Option (Place × List Char × Bool)
  | 0, p, g, text => some (p, text, g.crossed)
  | fuel + 1, p, g, text =>
    if p.atDocumentMark || p.sees '#' then some (p, text, g.crossed)
    else
      match readPlainWord flow (p.rest.length + 1) p [] with
      | none => none
      | some (p, word) =>
        let (text, g) :=
          if word.isEmpty then (text, g) else (word ++ g.chars.reverse ++ text, ({} : Gap))
        if !(p.atBlank || p.atBreak) then some (p, text, g.crossed)
        else
          match readGap (some indent) (p.rest.length + 1) p g with
          | none => none
          | some (p, g) =>
            if !flow && p.column < indent then some (p, text, g.crossed)
            else readPlainWords flow indent fuel p g text

/-- Reads a plain scalar. -/
def readPlain (flow : Bool) (indent : Nat) (p : Place) : Option (Place × List Char × Bool) :=
  (readPlainWords flow indent (p.rest.length + 1) p {} []).map fun (p, text, crossed) =>
    (p, text.reverse, crossed)

/-! ### Quoted scalars -/

/-- The character of an escape with one letter. -/
def escape? (c : Char) : Option Char :=
  match c with
  | '0' => some (Char.ofNat 0)
  | 'a' => some (Char.ofNat 7)
  | 'b' => some (Char.ofNat 8)
  | 't' => some '\t'
  | '\t' => some '\t'
  | 'n' => some '\n'
  | 'v' => some (Char.ofNat 11)
  | 'f' => some (Char.ofNat 12)
  | 'r' => some '\r'
  | 'e' => some (Char.ofNat 27)
  | ' ' => some ' '
  | '"' => some '"'
  | '/' => some '/'
  | '\\' => some '\\'
  | 'N' => some (Char.ofNat 0x85)
  | '_' => some (Char.ofNat 0xA0)
  | 'L' => some (Char.ofNat 0x2028)
  | 'P' => some (Char.ofNat 0x2029)
  | _ => none

/-- How many hexadecimal digits follow the letter of an escape. -/
def escapeWidth? (c : Char) : Option Nat :=
  match c with
  | 'x' => some 2
  | 'u' => some 4
  | 'U' => some 8
  | _ => none

/-- Reads an escape after its backslash. -/
def readEscape (p : Place) : Option (Place × Char) := do
  let c ← p.peek
  match escape? c with
  | some e => return (p.step, e)
  | none =>
    let width ← escapeWidth? c
    let p := p.step
    let digits := p.rest.take width
    let n ← natOfDigits? 16 digits
    if digits.length < width || (0xD800 ≤ n && n < 0xE000) || n > 0x10FFFF then none
    else return (p.skip width, Char.ofNat n)

/-- What stopped the reading of a word in quotes. -/
inductive QuotedStop where
  | quote
  | gap
  | escapedBreak

/-- Reads a word of a quoted scalar, last character first. -/
def readQuotedWord (double : Bool) :
    (fuel : Nat) → Place → List Char → Option (Place × List Char × QuotedStop)
  | 0, _, _ => none
  | fuel + 1, p, word =>
    match p.peek with
    | none => some (p, word, .gap)
    | some c =>
      if isBlank c || isBreak c then some (p, word, .gap)
      else if !double && c == '\'' && p.peekAt 1 == some '\'' then
        readQuotedWord double fuel (p.skip 2) ('\'' :: word)
      else if c == (if double then '"' else '\'') then some (p, word, .quote)
      else if double && c == '\\' then
        if (p.peekAt 1).any isBreak then some (p.step.stepLine.1, word, .escapedBreak)
        else match readEscape p.step with
          | none => none
          | some (p, e) => readQuotedWord double fuel p (e :: word)
      else readQuotedWord double fuel p.step (c :: word)

/-- Reads a quoted scalar after its opening quote. -/
def readQuotedFrom (double : Bool) :
    (fuel : Nat) → Place → (text : List Char) → Option (Place × List Char)
  | 0, _, _ => none
  | fuel + 1, p, text =>
    if p.atDocumentMark || p.atEnd then none
    else
      match readQuotedWord double (p.rest.length + 1) p [] with
      | none => none
      | some (p, word, stop) =>
        let text := word ++ text
        match stop with
        | .quote => some (p.step, text.reverse)
        | .gap =>
          match readGap none (p.rest.length + 1) p {} with
          | none => none
          | some (p, g) => readQuotedFrom double fuel p (g.chars.reverse ++ text)
        | .escapedBreak =>
          match readGap none (p.rest.length + 1) p { crossed := true } with
          | none => none
          | some (p, g) => readQuotedFrom double fuel p (g.chars.reverse ++ text)

/-- Reads a quoted scalar. -/
def readQuoted (double : Bool) (p : Place) : Option (Place × List Char) :=
  readQuotedFrom double (p.rest.length + 2) p.step []

/-! ### Block scalars -/

/-- What happens to the line ends at the end of a block scalar. -/
inductive Chomp where
  | strip
  | clip
  | keep

/-- Reads the mark for line ends. -/
def readChomp (p : Place) : Option (Chomp × Place) :=
  if p.sees '+' then some (.keep, p.step)
  else if p.sees '-' then some (.strip, p.step)
  else none

/-- Reads the mark for the indentation. -/
def readIncrement (p : Place) : Option (Option Nat × Place) :=
  match p.peek with
  | some c =>
    if c == '0' then none
    else if c.isDigit then some (some (c.toNat - 48), p.step)
    else some (none, p)
  | none => some (none, p)

/-- Reads the marks behind `|` or `>`, in either order. -/
def readBlockMarks (p : Place) : Option (Chomp × Option Nat × Place) :=
  match readChomp p with
  | some (chomp, p) => (readIncrement p).map fun (increment, p) => (chomp, increment, p)
  | none =>
    match readIncrement p with
    | none => none
    | some (some n, p) =>
      match readChomp p with
      | some (chomp, p) => some (chomp, some n, p)
      | none => some (.clip, some n, p)
    | some (none, p) => some (.clip, none, p)

/-- Passes the empty lines and the indentation before a line of a block
scalar. `indent` is zero until it is known; the result holds the place, the
line ends passed and the greatest indentation seen. -/
def readIndentation (indent : Nat) :
    (fuel : Nat) → Place → (ends : List Char) → (widest : Nat) → Option (Place × List Char × Nat)
  | 0, p, ends, widest => some (p, ends, widest)
  | fuel + 1, p, ends, widest =>
    if (indent == 0 || p.column < indent) && p.sees ' ' then
      readIndentation indent fuel p.step ends widest
    else
      let widest := max widest p.column
      if (indent == 0 || p.column < indent) && p.sees '\t' then none
      else if p.atBreak then
        let (p, e) := p.stepLine
        readIndentation indent fuel p (ends ++ e) widest
      else some (p, ends, widest)

/-- Reads the lines of a block scalar. `first` and `more` are the line ends
that wait to be written. -/
def readBlockLines (literal : Bool) (indent : Nat) :
    (fuel : Nat) → Place → (text first more : List Char) → (afterBlank : Bool) →
      Option (Place × List Char × List Char × List Char)
  | 0, p, text, first, more, _ => some (p, text, first, more)
  | fuel + 1, p, text, first, more, afterBlank =>
    if p.column != indent || p.atEnd then some (p, text, first, more)
    else
      let blank := p.atBlank
      let joined :=
        if !literal && first.head? == some '\n' && !afterBlank && !blank then
          (if more.isEmpty then [' '] else [])
        else first
      let (p, line) := p.takeWhile fun c => !isBreak c
      let text := text ++ joined ++ more ++ line
      let (p, first) := p.stepLine
      match readIndentation indent (p.rest.length + 1) p [] 0 with
      | none => none
      | some (p, more, _) => readBlockLines literal indent fuel p text first more blank

/-- Reads a block scalar at its mark. `parent` is the indentation around it. -/
def readBlock (literal : Bool) (parent : Int) (p : Place) : Option (Place × List Char) := do
  let (chomp, increment, p) ← readBlockMarks p.step
  let (p, _) := p.takeWhile isBlank
  let p := if p.sees '#' then (p.takeWhile fun c => !isBreak c).1 else p
  if !p.atEnd && !p.atBreak then none
  else
    let (p, _) := p.stepLine
    let known := increment.map fun n => (max parent 0).toNat + n
    let (p, more, widest) ← readIndentation (known.getD 0) (p.rest.length + 1) p [] 0
    let indent := known.getD (max widest (max (parent + 1) 1).toNat)
    let (p, text, first, more) ← readBlockLines literal indent (p.rest.length + 1) p [] [] more false
    return (p, match chomp with
      | .strip => text
      | .clip => text ++ first
      | .keep => text ++ first ++ more)

end Yaml
end Docblock
