/-
# Indentation of a text

`unindent` removes the blanks that every line with content starts with, so
a comment keeps its relative indentation. It compares two lines only: the
first and the last in the order of texts. What those two share all lines
share, since every other line stands between them. A line shorter than the
width becomes empty.

Key definitions: `sharedBlanks`, `indentWidth`, `unindent`.
-/
import Docblock.Text.Blank
import Docblock.Text.Cut

namespace Docblock
namespace Text

/-- The blanks that two lines both start with. -/
def sharedBlanks : List Char → List Char → List Char
  | a :: as, b :: bs => if isBlank a && a == b then a :: sharedBlanks as bs else []
  | _, _ => []

/-- Whether a line holds anything but blanks. -/
def isFilled (line : List Char) : Bool :=
  line.any fun c => !isBlank c

/-- The earlier of two lines in the order of texts. -/
def earlier (a b : List Char) : List Char :=
  if compareChars a b == .gt then b else a

/-- The later of two lines in the order of texts. -/
def later (a b : List Char) : List Char :=
  if compareChars a b == .gt then a else b

/-- How many blanks all lines with content start with; zero when there is no
such line. -/
def indentWidth (lines : List (List Char)) : Nat :=
  match lines.filter isFilled with
  | [] => 0
  | line :: others => (sharedBlanks (others.foldl earlier line) (others.foldl later line)).length

/-- The lines without the indentation that they share. -/
def dropIndent (lines : List (List Char)) : List (List Char) :=
  lines.map (List.drop (indentWidth lines))

/-- The text with its common indentation removed. -/
def unindent (s : String) : String :=
  String.ofList (['\n'].intercalate (dropIndent (splitChars (· == '\n') s.toList)))

end Text
end Docblock
