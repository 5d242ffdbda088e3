/-
# Markdown as markup

The blocks and parts of a Markdown text, written as markup. Blocks start on
lines of their own.

Key definitions: `Markdown.escapeText`, `Markdown.escapeAttribute`,
`Markdown.escapeHref`, `Markdown.toHtml`.
-/
import Docblock.Markdown.Inline
import Docblock.Markdown.Structure
import Docblock.Text.Encoding

namespace Docblock
namespace Markdown

/-! ### Escaping -/

/-- A character of a text. -/
def escapeTextChar (c : Char) : List Char :=
  match c with
  | '&' => "&amp;".toList
  | '<' => "&lt;".toList
  | '>' => "&gt;".toList
  | c => [c]

/-- A text without marks of the markup. -/
def escapeText (s : String) : String := String.ofList (s.toList.flatMap escapeTextChar)

/-- A text without marks of the markup and without quotes. -/
def escapeAttribute (s : String) : String :=
  String.ofList (s.toList.flatMap fun c =>
    match c with
    | '"' => "&quot;".toList
    | '\'' => "&#39;".toList
    | c => escapeTextChar c)

/-- Characters that stand for themselves in an address. -/
def isSafeInHref (c : Char) : Bool :=
  c.isAlphanum || "!#$%()*+,-./:;=?@_~".toList.contains c

/-- A byte in hexadecimal. -/
def percent (b : UInt8) : List Char :=
  let digit := fun (n : Nat) => Char.ofNat (if n < 10 then 48 + n else 55 + n)
  ['%', digit (b.toNat / 16), digit (b.toNat % 16)]

/-- An address in an attribute: bytes that are not safe are written as
numbers. -/
def escapeHref (s : String) : String :=
  String.ofList (s.toList.flatMap fun c =>
    if isSafeInHref c then [c]
    else if c == '&' then "&amp;".toList
    else if c == '\'' then "&#x27;".toList
    else (Text.utf8Bytes (String.singleton c)).flatMap percent)

/-! ### Pages -/

/-- Markup that is being written. -/
structure Page where
  text : String := ""
  /-- Whether the next character starts a line. -/
  atStart : Bool := true

namespace Page

/-- Writes a text. -/
def write (s : String) (p : Page) : Page :=
  if s.isEmpty then p else ⟨p.text ++ s, s.toList.getLast? == some '\n'⟩

/-- Writes a text on a line of its own. -/
def writeLine (s : String) (p : Page) : Page :=
  (if p.atStart then p else p.write "\n").write s

end Page

/-! ### Parts of paragraphs -/

mutual

/-- The text of a part, for the description of an image. -/
def Inline.plain : Inline → String
  | .text s => escapeAttribute s
  | .code s => escapeAttribute s
  | .markup s => escapeAttribute s
  | .softBreak => " "
  | .hardBreak => " "
  | .emphasis parts => plainParts parts
  | .strong parts => plainParts parts
  | .struck parts => plainParts parts
  | .link _ _ parts => plainParts parts
  | .image _ _ parts => plainParts parts

/-- The text of parts. -/
def plainParts : List Inline → String
  | [] => ""
  | i :: is => i.plain ++ plainParts is

end

/-- The title of a link or image. -/
def titleAttribute (title : String) : String :=
  if title.isEmpty then "" else "\" title=\"" ++ escapeAttribute title

mutual

/-- A part of a paragraph as markup. -/
def Inline.html : Inline → String
  | .text s => escapeText s
  | .code s => "<code>" ++ escapeText s ++ "</code>"
  | .markup s => s
  | .softBreak => "\n"
  | .hardBreak => "<br />\n"
  | .emphasis parts => "<em>" ++ htmlParts parts ++ "</em>"
  | .strong parts => "<strong>" ++ htmlParts parts ++ "</strong>"
  | .struck parts => "<del>" ++ htmlParts parts ++ "</del>"
  | .link destination title parts =>
    "<a href=\"" ++ escapeHref destination ++ titleAttribute title ++ "\">" ++ htmlParts parts ++
      "</a>"
  | .image destination title parts =>
    "<img src=\"" ++ escapeHref destination ++ "\" alt=\"" ++ plainParts parts ++
      titleAttribute title ++ "\" />"

/-- Parts of a paragraph as markup. -/
def htmlParts : List Inline → String
  | [] => ""
  | i :: is => i.html ++ htmlParts is

end

/-! ### Blocks -/

/-- The attribute of a cell for its alignment. -/
def alignmentAttribute : Alignment → String
  | .none => ""
  | .left => " style=\"text-align: left\""
  | .center => " style=\"text-align: center\""
  | .right => " style=\"text-align: right\""

/-- The cells of a row. -/
def cellsHtml (inline : String → String) (tag : String) (alignments : List Alignment)
    (cells : List String) : String :=
  "<tr>" ++ String.join ((alignments.zip cells).map fun (alignment, cell) =>
    "<" ++ tag ++ alignmentAttribute alignment ++ ">" ++ inline cell ++ "</" ++ tag ++ ">") ++
    "</tr>"

/-- A table. -/
def tableHtml (inline : String → String) (alignments : List Alignment) (head : List String)
    (rows : List (List String)) : String :=
  "<table><thead>" ++ cellsHtml inline "th" alignments head ++ "</thead><tbody>\n" ++
    String.join (rows.map fun row => cellsHtml inline "td" alignments row ++ "\n") ++
    "</tbody></table>\n"

/-- The tag before code. -/
def codeTag (language : String) : String :=
  if language.isEmpty then "<pre><code>"
  else "<pre><code class=\"language-" ++ escapeAttribute language ++ "\">"

/-- The tag before a list. -/
def listTag (start : Option Nat) : String :=
  match start with
  | none => "<ul>\n"
  | some 1 => "<ol>\n"
  | some n => "<ol start=\"" ++ toString n ++ "\">\n"

mutual

/-- Writes a block. The paragraphs of tight lists have no tags. -/
def Block.write (inline : String → String) (isTight : Bool) (p : Page) : Block → Page
  | .paragraph text =>
    if isTight then p.write (inline text)
    else ((p.writeLine "<p>").write (inline text)).write "</p>\n"
  | .heading level text =>
    let tag := "h" ++ toString level
    ((p.writeLine ("<" ++ tag ++ ">")).write (inline text)).write ("</" ++ tag ++ ">\n")
  | .code language text =>
    ((p.writeLine (codeTag language)).write (escapeText text)).write "</code></pre>\n"
  | .markup text => p.write text
  | .rule => p.writeLine "<hr />\n"
  | .table alignments head rows => p.write (tableHtml inline alignments head rows)
  | .quote blocks =>
    (writeBlocks inline false (p.writeLine "<blockquote>\n") blocks).write "</blockquote>\n"
  | .list start isTight items =>
    (writeItems inline isTight (p.writeLine (listTag start)) items).write
      (if start.isSome then "</ol>\n" else "</ul>\n")

/-- Writes blocks one after the other. -/
def writeBlocks (inline : String → String) (isTight : Bool) (p : Page) : List Block → Page
  | [] => p
  | b :: bs => writeBlocks inline isTight (b.write inline isTight p) bs

/-- Writes the items of a list. -/
def writeItems (inline : String → String) (isTight : Bool) (p : Page) : List (List Block) → Page
  | [] => p
  | item :: items =>
    writeItems inline isTight
      ((writeBlocks inline isTight (p.writeLine "<li>") item).write "</li>\n") items

end

/-- A Markdown text as markup. -/
def toHtml (text : String) : String :=
  let (blocks, targets) := readBlocks text
  (writeBlocks (fun s => htmlParts (readInlines targets s)) false {} blocks).text

end Markdown
end Docblock
