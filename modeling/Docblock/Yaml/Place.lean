/-
# Places in a YAML text

A place is the text that is left together with its line and column. Line
ends are normalised when they are passed.

Key definitions: `Yaml.Place`, `Yaml.Place.step`, `Yaml.Place.stepLine`.
-/

namespace Docblock
namespace Yaml

/-- Spaces and tabs. -/
def isBlank (c : Char) : Bool := c == ' ' || c == '\t'

/-- The ends of lines. -/
def isBreak (c : Char) : Bool :=
  c == '\n' || c == '\r' || c.toNat == 0x85 || c.toNat == 0x2028 || c.toNat == 0x2029

/-- A place in a text. -/
structure Place where
  rest : List Char
  line : Nat := 0
  column : Nat := 0
  index : Nat := 0

namespace Place

/-- The next character. -/
def peek (p : Place) : Option Char := p.rest.head?

/-- The character `n` places ahead. -/
def peekAt (p : Place) (n : Nat) : Option Char := p.rest[n]?

/-- Whether the next character is this one. -/
def sees (p : Place) (c : Char) : Bool := p.peek == some c

/-- Whether a blank, the end of a line or the end of the text stands `n`
places ahead. -/
def gapAt (p : Place) (n : Nat) : Bool :=
  match p.peekAt n with
  | none => true
  | some c => isBlank c || isBreak c

/-- Whether the next character is a space or tab. -/
def atBlank (p : Place) : Bool := p.peek.any isBlank

/-- Whether a line ends here. -/
def atBreak (p : Place) : Bool := p.peek.any isBreak

/-- Whether the text ends here. -/
def atEnd (p : Place) : Bool := p.rest.isEmpty

/-- Passes one character of a line. -/
def step (p : Place) : Place :=
  match p.rest with
  | [] => p
  | _ :: cs => { p with rest := cs, column := p.column + 1, index := p.index + 1 }

/-- Passes `n` characters of a line. -/
def skip (p : Place) : Nat → Place
  | 0 => p
  | n + 1 => p.step.skip n

/-- Passes the end of a line and says what it stands for; stays where no line
ends. -/
def stepLine (p : Place) : Place × List Char :=
  match p.rest with
  | '\r' :: '\n' :: cs =>
    ({ rest := cs, line := p.line + 1, column := 0, index := p.index + 2 }, ['\n'])
  | c :: cs =>
    if isBreak c then
      ({ rest := cs, line := p.line + 1, column := 0, index := p.index + 1 },
        if c.toNat == 0x2028 || c.toNat == 0x2029 then [c] else ['\n'])
    else (p, [])
  | [] => (p, [])

/-- Whether a line starts here with a mark between documents. -/
def atDocumentMark (p : Place) : Bool :=
  p.column == 0 && ((p.rest.take 3 == ['-', '-', '-']) || (p.rest.take 3 == ['.', '.', '.'])) &&
    p.gapAt 3

/-- Passes characters while they satisfy `accepts`, and collects them. -/
def takeWhile (accepts : Char → Bool) (p : Place) : Place × List Char :=
  let taken := p.rest.takeWhile accepts
  ({ p with
    rest := p.rest.dropWhile accepts
    column := p.column + taken.length
    index := p.index + taken.length }, taken)

end Place
end Yaml
end Docblock
