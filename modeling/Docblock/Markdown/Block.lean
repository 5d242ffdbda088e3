/-
# Blocks of Markdown

A Markdown text is a list of blocks: paragraphs, headings, code, markup,
rules, tables, quotes and lists. This module holds the blocks and the marks
by which a line starts one.

Key definitions: `Markdown.Block`, `Markdown.isRule`, `Markdown.heading?`,
`Markdown.Fence.read?`, `Markdown.MarkupKind.read?`, `Markdown.ListMark.read?`,
`Markdown.readAlignments?`.
-/
import Docblock.Markdown.Character
import Docblock.Markdown.Line
import Docblock.Markdown.RawTag
import Docblock.Text.Case

namespace Docblock
namespace Markdown

/-- How the cells of a column are aligned. -/
inductive Alignment where
  | none
  | left
  | center
  | right
  deriving DecidableEq, Repr

/-- A block; its texts are not read further yet. -/
inductive Block where
  | paragraph (text : String)
  | heading (level : Nat) (text : String)
  | code (language : String) (text : String)
  | markup (text : String)
  | rule
  | table (alignments : List Alignment) (head : List String) (rows : List (List String))
  | quote (blocks : List Block)
  /-- A list with the number of its first item, if items are numbered. -/
  | list (start : Option Nat) (isTight : Bool) (items : List (List Block))
  deriving Inhabited

/-! ### Rules and headings -/

/-- Whether a line is a rule: at least three equal marks, and blanks. -/
def isRule (cs : List Char) : Bool :=
  match cs.filter fun c => !isGap c with
  | c :: marks =>
    (c == '*' || c == '-' || c == '_') && 2 ≤ marks.length && marks.all (· == c)
  | [] => false

/-- A text without blanks at its end. -/
def dropGapEnd (cs : List Char) : List Char := (cs.reverse.dropWhile isGap).reverse

/-- The text of a heading without marks at its end. -/
def dropClosingMarks (cs : List Char) : List Char :=
  let cs := dropGapEnd cs
  let back := cs.reverse.dropWhile (· == '#')
  if back.length == cs.length then cs
  else match back with
    | [] => []
    | c :: _ => if isGap c then dropGapEnd back.reverse else cs

/-- The level and text of a heading with marks in front. -/
def heading? (cs : List Char) : Option (Nat × List Char) :=
  let marks := cs.takeWhile (· == '#')
  let rest := cs.drop marks.length
  if marks.isEmpty || 6 < marks.length || !rest.head?.all isGap then none
  else some (marks.length, dropClosingMarks (rest.dropWhile isGap))

/-- The level of the heading that a line under its text makes. -/
def underline? (cs : List Char) : Option Nat :=
  match dropGapEnd cs with
  | '=' :: cs => if cs.all (· == '=') then some 1 else none
  | '-' :: cs => if cs.all (· == '-') then some 2 else none
  | _ => none

/-! ### Fences -/

/-- The fence before a block of code. -/
structure Fence where
  mark : Char
  length : Nat
  /-- The indentation of the fence, which its lines may have too. -/
  indent : Nat
  info : String

/-- The first word of the text behind a fence. -/
def Fence.language (f : Fence) : String := Text.upTo (· == ' ') f.info

/-- Reads a fence; the text behind one of backticks has none of them. -/
def Fence.read? (indent : Nat) (cs : List Char) : Option Fence :=
  match cs with
  | [] => none
  | c :: _ =>
    let marks := cs.takeWhile (· == c)
    let info := dropGapEnd ((cs.drop marks.length).dropWhile isGap)
    if (c != '\x60' && c != '~') || marks.length < 3 || (c == '\x60' && info.contains '\x60') then none
    else some ⟨c, marks.length, indent, unescape info⟩

/-- Whether a line closes the fence. -/
def Fence.isClosedBy (f : Fence) (l : Line) : Bool :=
  let marks := l.content.takeWhile (· == f.mark)
  l.indent < 4 && f.length ≤ marks.length && (l.content.drop marks.length).all isGap

/-! ### Markup -/

/-- How a block of markup ends: with a piece of text, or at a blank line. -/
inductive MarkupEnd where
  | text (pieces : List String)
  | blankLine
  deriving DecidableEq

/-- Tags whose content is no Markdown. -/
def verbatimTags : List String := ["script", "pre", "textarea", "style"]

/-- Tags that start a block of markup. -/
def blockTags : List String := [
  "address", "article", "aside", "base", "basefont", "blockquote", "body", "caption", "center",
  "col", "colgroup", "dd", "details", "dialog", "dir", "div", "dl", "dt", "fieldset",
  "figcaption", "figure", "footer", "form", "frame", "frameset", "h1", "h2", "h3", "h4", "h5",
  "h6", "head", "header", "hr", "html", "iframe", "legend", "li", "link", "main", "menu",
  "menuitem", "nav", "noframes", "ol", "optgroup", "option", "p", "param", "search", "section",
  "summary", "table", "tbody", "td", "tfoot", "th", "thead", "title", "tr", "track", "ul"]

/-- The letters and digits at the start of a text, in small letters. -/
def tagWord (cs : List Char) : String :=
  String.ofList ((cs.takeWhile Char.isAlphanum).map Char.toLower)

/-- Whether a tag name ends here. -/
def endsTagName (cs : List Char) : Bool :=
  match cs with
  | [] => true
  | c :: _ => isGap c || c == '>'

/-- How the block of markup ends that a line starts, given what follows its
`<`. The last kind, a complete tag, does not interrupt a paragraph. -/
def markupEnd? (interrupts : Bool) (cs : List Char) : Option MarkupEnd :=
  let word := tagWord cs
  let rest := cs.drop word.length
  let closed := cs.dropWhile (· == '/')
  let blockWord := tagWord (if cs.head? == some '/' then cs.drop 1 else cs)
  let blockRest := (if cs.head? == some '/' then cs.drop 1 else cs).drop blockWord.length
  if verbatimTags.contains word && endsTagName rest then
    some (.text (verbatimTags.map fun tag => "</" ++ tag ++ ">"))
  else match cs with
    | '!' :: '-' :: '-' :: _ => some (.text ["-->"])
    | '?' :: _ => some (.text ["?>"])
    | '!' :: '[' :: 'C' :: 'D' :: 'A' :: 'T' :: 'A' :: '[' :: _ => some (.text ["]]>"])
    | '!' :: c :: _ => if isAsciiLetter c then some (.text [">"]) else none
    | _ =>
      if blockTags.contains blockWord &&
          (endsTagName blockRest || blockRest.take 2 == ['/', '>']) then some .blankLine
      else if interrupts || verbatimTags.contains (tagWord closed) then none
      else match (afterOpenTag? cs).or (afterClosingTag? cs) with
        | some rest => if rest.all isGap then some .blankLine else none
        | none => none

/-- Whether a line has the text that ends a block of markup. -/
def MarkupEnd.isIn (e : MarkupEnd) (cs : List Char) : Bool :=
  match e with
  | .text pieces => pieces.any fun piece =>
    (Text.cutAt? piece.toList (cs.map Char.toLower)).isSome || (Text.cutAt? piece.toList cs).isSome
  | .blankLine => false

/-! ### List marks -/

/-- The mark of an item: what makes it part of a list, and its number. -/
structure ListMark where
  /-- The bullet, or what stands behind the number. -/
  delimiter : Char
  number : Option Nat
  deriving DecidableEq

/-- Whether two items belong to one list. -/
def ListMark.joins (a b : ListMark) : Bool :=
  a.delimiter == b.delimiter && a.number.isSome == b.number.isSome

/-- Reads the mark of an item: the mark and its length. -/
def ListMark.read? (cs : List Char) : Option (ListMark × Nat) :=
  match cs with
  | [] => none
  | c :: rest =>
    if c == '-' || c == '+' || c == '*' then
      if rest.head?.all isGap then some (⟨c, none⟩, 1) else none
    else
      let digits := cs.takeWhile Char.isDigit
      match cs.drop digits.length with
      | d :: rest =>
        if !digits.isEmpty && digits.length ≤ 9 && (d == '.' || d == ')') && rest.head?.all isGap
        then
          let number := digits.foldl (fun n c => n * 10 + (c.toNat - 48)) 0
          some (⟨d, some number⟩, digits.length + 1)
        else none
      | [] => none

/-! ### Tables -/

/-- The alignment of a column by its cell under the head. -/
def alignment? (cs : List Char) : Option Alignment :=
  let cs := dropGapEnd (cs.dropWhile isGap)
  let inner := cs.filter (· != ':')
  if inner.isEmpty || !inner.all fun c => c == '-' || isGap c then none
  else some (match cs.head? == some ':', cs.getLast? == some ':' with
    | true, true => .center
    | true, false => .left
    | false, true => .right
    | false, false => .none)

/-- The cells of a row: split at bars without a backslash. -/
def splitCells : List Char → List (List Char)
  | [] => [[]]
  | '\\' :: '|' :: cs =>
    match splitCells cs with
    | [] => [['|']]
    | cell :: cells => ('|' :: cell) :: cells
  | '|' :: cs => [] :: splitCells cs
  | c :: cs =>
    match splitCells cs with
    | [] => [[c]]
    | cell :: cells => (c :: cell) :: cells

/-- The text without a bar in front. -/
def dropBar (cs : List Char) : List Char :=
  match cs.dropWhile isGap with
  | '|' :: rest => rest
  | rest => rest

/-- The cells of a row without the bars around it. -/
def rowCells (cs : List Char) : List String :=
  let cells := splitCells (dropBar cs)
  let cells := match cells.getLast? with
    | some last => if last.all isGap then cells.dropLast else cells
    | none => cells
  cells.map fun cell => String.ofList (dropGapEnd (cell.dropWhile isGap))

/-- Whether a text has a bar without a backslash. -/
def hasBar (cs : List Char) : Bool := 1 < (splitCells cs).length

/-- The alignments in the line under the head of a table. -/
def readAlignments? (cs : List Char) : Option (List Alignment) :=
  if !cs.contains '|' then none
  else
    let cells := Text.splitChars (· == '|') (dropBar cs)
    let cells := match cells.getLast? with
      | some last => if last.all isGap then cells.dropLast else cells
      | none => cells
    if cells.isEmpty then none else cells.mapM alignment?

/-- A row with exactly as many cells as there are columns. -/
def fitRow (columns : Nat) (cells : List String) : List String :=
  cells.take columns ++ List.replicate (columns - cells.length) ""

end Markdown
end Docblock
