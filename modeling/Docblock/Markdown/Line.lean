/-
# Lines of Markdown

The structure of a Markdown text is read line by line. Indentation counts in
columns, and a tab goes on to the next multiple of four; a tab may be used
up in part.

Key definitions: `Markdown.Line`, `Markdown.Line.indent`,
`Markdown.Line.advance`, `Markdown.linesOf`.
-/
import Docblock.Text.Cut

namespace Docblock
namespace Markdown

/-- What is left of a line. -/
structure Line where
  /-- The column at which the rest starts. -/
  column : Nat := 0
  /-- The columns left of a tab that was used up in part. -/
  pending : Nat := 0
  rest : List Char
  /-- Whether a line end follows. -/
  ended : Bool := true

/-- Blanks within a line. -/
def isGap (c : Char) : Bool := c == ' ' || c == '\t'

/-- The columns that blanks take up from a column on. -/
def gapWidth (column : Nat) : List Char → Nat
  | ' ' :: cs => 1 + gapWidth (column + 1) cs
  | '\t' :: cs => (4 - column % 4) + gapWidth (column + (4 - column % 4)) cs
  | _ => 0

namespace Line

/-- The indentation of the rest, in columns. -/
def indent (l : Line) : Nat := l.pending + gapWidth (l.column + l.pending) l.rest

/-- Whether nothing but blanks is left. -/
def isBlank (l : Line) : Bool := l.rest.all isGap

/-- The rest with its first `n` columns of blanks used up. -/
def advance : (n : Nat) → Line → Line
  | 0, l => l
  | n + 1, l =>
    if l.pending > 0 then advance n { l with column := l.column + 1, pending := l.pending - 1 }
    else match l.rest with
      | ' ' :: rest => advance n { l with column := l.column + 1, rest }
      | '\t' :: rest =>
        advance n { l with column := l.column + 1, pending := 3 - l.column % 4, rest }
      | _ => l

/-- The rest without its indentation. -/
def dropIndent (l : Line) : Line := l.advance l.indent

/-- The rest without `n` characters that are no blanks. -/
def drop (n : Nat) (l : Line) : Line := { l with column := l.column + n, rest := l.rest.drop n }

/-- The characters that are left, with what is left of a tab as spaces. -/
def chars (l : Line) : List Char := List.replicate l.pending ' ' ++ l.rest

/-- The characters that are left with the line end. -/
def fullChars (l : Line) : List Char := if l.ended then l.chars ++ ['\n'] else l.chars

/-- The characters behind the indentation. -/
def content (l : Line) : List Char := l.rest.dropWhile isGap

end Line

/-- Line ends as single characters. -/
def unifyLineEnds : List Char → List Char
  | [] => []
  | '\r' :: '\n' :: cs => '\n' :: unifyLineEnds cs
  | '\r' :: cs => '\n' :: unifyLineEnds cs
  | c :: cs => c :: unifyLineEnds cs

/-- The lines of a text. -/
def linesOf (text : String) : List Line :=
  let pieces := Text.splitChars (· == '\n') (unifyLineEnds text.toList)
  let ended := pieces.dropLast.map fun rest => ({ rest } : Line)
  match pieces.getLast? with
  | some [] => ended
  | some rest => ended ++ [{ rest, ended := false }]
  | none => ended

end Markdown
end Docblock
