/-
# Links in Markdown

A link has a destination and may have a title. They stand behind the text of
the link, or in a definition that gives them a label.

Key definitions: `Markdown.Target`, `Markdown.readDestination?`,
`Markdown.readTitle?`, `Markdown.readLabel?`, `Markdown.readDefinition?`.
-/
import Docblock.Markdown.Character
import Docblock.Markdown.Line
import Docblock.Text.Blank
import Docblock.Text.Case

namespace Docblock
namespace Markdown

/-- Where a link leads. -/
structure Target where
  destination : String
  title : String := ""

/-- Blanks and line ends. -/
def isSpace (c : Char) : Bool := c == ' ' || c == '\t' || c == '\n'

/-! ### Destinations -/

/-- Reads a destination up to its `>`. -/
def readAngled? : List Char → Option (List Char × List Char)
  | [] => none
  | '>' :: rest => some ([], rest)
  | '\\' :: c :: rest =>
    if c == '\n' then none else (readAngled? rest).map fun (d, r) => ('\\' :: c :: d, r)
  | c :: rest =>
    if c == '<' || c == '\n' then none else (readAngled? rest).map fun (d, r) => (c :: d, r)

/-- Reads a destination up to a blank or a parenthesis that was not opened in
it. -/
def readBare : (depth : Nat) → List Char → List Char × List Char
  | _, [] => ([], [])
  | depth, '\\' :: c :: rest =>
    if Text.isAsciiPunctuation c then
      let (d, r) := readBare depth rest
      ('\\' :: c :: d, r)
    else
      let (d, r) := readBare depth (c :: rest)
      ('\\' :: d, r)
  | depth, c :: rest =>
    if c.toNat ≤ 32 || c.toNat == 127 then ([], c :: rest)
    else if c == ')' then
      match depth with
      | 0 => ([], c :: rest)
      | depth + 1 =>
        let (d, r) := readBare depth rest
        (c :: d, r)
    else
      let (d, r) := readBare (if c == '(' then depth + 1 else depth) rest
      (c :: d, r)

/-- The difference of opening and closing parentheses without a backslash. -/
def openParens : List Char → Int
  | [] => 0
  | '\\' :: _ :: rest => openParens rest
  | c :: rest => (if c == '(' then 1 else if c == ')' then -1 else 0) + openParens rest

/-- Reads a destination: in angle brackets, or bare with matching
parentheses. -/
def readDestination? : List Char → Option (String × List Char)
  | '<' :: cs => (readAngled? cs).map fun (d, rest) => (unescape d, rest)
  | cs =>
    let (d, rest) := readBare 0 cs
    if openParens d == 0 then some (unescape d, rest) else none

/-! ### Titles -/

/-- Reads a title up to its closing mark. -/
def readTitleTo? (opening closing : Char) : List Char → Option (List Char × List Char)
  | [] => none
  | '\\' :: c :: rest => (readTitleTo? opening closing rest).map fun (t, r) => ('\\' :: c :: t, r)
  | c :: rest =>
    if c == closing then some ([], rest)
    else if c == opening then none
    else (readTitleTo? opening closing rest).map fun (t, r) => (c :: t, r)

/-- Reads a title in quotes or parentheses. -/
def readTitle? : List Char → Option (String × List Char)
  | '"' :: cs => (readTitleTo? '"' '"' cs).map fun (t, rest) => (unescape t, rest)
  | '\'' :: cs => (readTitleTo? '\'' '\'' cs).map fun (t, rest) => (unescape t, rest)
  | '(' :: cs => (readTitleTo? '(' ')' cs).map fun (t, rest) => (unescape t, rest)
  | _ => none

/-! ### Labels -/

/-- Reads a label up to its `]`; it may be no longer than 999 characters. -/
def readLabelTo? : (room : Nat) → List Char → Option (List Char × List Char)
  | _, [] => none
  | 0, c :: rest => if c == ']' then some ([], rest) else none
  | _ + 1, ']' :: rest => some ([], rest)
  | _ + 1, '[' :: _ => none
  | room + 1, '\\' :: c :: rest =>
    (readLabelTo? (room - 1) rest).map fun (l, r) => ('\\' :: c :: l, r)
  | room + 1, c :: rest => (readLabelTo? room rest).map fun (l, r) => (c :: l, r)

/-- Reads a label in brackets, which may be blank. -/
def readLabel? : List Char → Option (List Char × List Char)
  | '[' :: cs => readLabelTo? 999 cs
  | _ => none

/-- Labels are compared without regard to case and to the length of blanks. -/
def normalLabel (label : List Char) : String :=
  Text.join " " (Text.words (Text.foldCase (String.ofList label)))

/-! ### Definitions -/

/-- What follows blanks at the end of a line, if nothing else does. -/
def afterLineEnd? (cs : List Char) : Option (List Char) :=
  match cs.dropWhile isGap with
  | [] => some []
  | '\n' :: rest => some rest
  | _ => none

/-- What follows blanks and at most one line end. -/
def skipSpace (cs : List Char) : List Char :=
  match cs.dropWhile isGap with
  | '\n' :: rest => rest.dropWhile isGap
  | rest => rest

/-- Reads the title and the line end of a definition. A title that fills no
line to its end is none. -/
def readDefinitionEnd? (destination : String) (cs : List Char) : Option (Target × List Char) :=
  let spaced := skipSpace cs
  let titled := if spaced.length == cs.length then none else do
    let (title, rest) ← readTitle? spaced
    let rest ← afterLineEnd? rest
    return (⟨destination, title⟩, rest)
  titled.or ((afterLineEnd? cs).map fun rest => (⟨destination, ""⟩, rest))

/-- Reads a definition at the start of a text: its label, where it leads and
the rest. -/
def readDefinition? (cs : List Char) : Option (String × Target × List Char) := do
  let (label, rest) ← readLabel? cs
  if label.all isSpace then none
  else match rest with
    | ':' :: rest =>
      let start := skipSpace rest
      if start.isEmpty then none
      else
        let (destination, rest) ← readDestination? start
        if rest.length == start.length then none
        else
          let (target, rest) ← readDefinitionEnd? destination rest
          return (normalLabel label, target, rest)
    | _ => none

/-- The links of a text by label. -/
abbrev Targets := List (String × Target)

/-- Where a label leads; the first definition counts. -/
def Targets.find? (ts : Targets) (label : List Char) : Option Target :=
  (List.find? (fun entry => entry.1 == normalLabel label) ts).map Prod.snd

end Markdown
end Docblock
