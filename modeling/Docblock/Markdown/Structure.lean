/-
# The block structure of Markdown

Lines are read one after the other. Open quotes and items are followed as
far as a line continues them; then the line may open new ones, and what is
left belongs to the innermost block. A paragraph goes on even if the line
does not continue the quotes and items around it.

Key definitions: `Markdown.Frame`, `Markdown.Reader`, `Markdown.addLine`,
`Markdown.readBlocks`.
-/
import Docblock.Markdown.Block
import Docblock.Markdown.Link

namespace Docblock
namespace Markdown

/-! ### Open blocks -/

/-- What is around an open block. -/
inductive Container where
  | document
  | quote
  /-- An item with the columns that its further lines are indented by. -/
  | item (mark : ListMark) (width : Nat)

/-- A closed part of a container; items are not in lists yet. -/
inductive Entry where
  | block (b : Block)
  /-- An item: whether a blank line stands before it, whether blank lines stand
  between its blocks, and its blocks. -/
  | item (mark : ListMark) (spaced loose : Bool) (blocks : List Block)

/-- An open container with what it holds so far, the last part first. -/
structure Frame where
  container : Container
  entries : List Entry := []
  /-- Whether a blank line stands before the item. -/
  spaced : Bool := false
  /-- Whether blank lines stand between the parts. -/
  loose : Bool := false

/-- The innermost open block. Lines are kept with the last one first. -/
inductive Leaf where
  | none
  | paragraph (lines : List (List Char))
  | fenced (fence : Fence) (lines : List (List Char))
  | indented (lines : List (List Char))
  | markup (ending : MarkupEnd) (lines : List (List Char))
  | table (alignments : List Alignment) (head : List String) (rows : List (List String))

/-- A text that is being read: the open containers, the innermost first. -/
structure Reader where
  frames : List Frame := [{ container := .document }]
  leaf : Leaf := .none
  /-- Whether the line before was blank. -/
  afterBlank : Bool := false
  targets : Targets := []

/-! ### Closing -/

/-- The items at the start of entries that make up one list. -/
def takeItems (mark : ListMark) : List Entry → List (Bool × Bool × List Block) × List Entry
  | .item m spaced loose blocks :: rest =>
    if mark.joins m then
      let (items, rest) := takeItems mark rest
      ((spaced, loose, blocks) :: items, rest)
    else ([], .item m spaced loose blocks :: rest)
  | rest => ([], rest)

/-- A list; it is loose if blank lines stand between its items or in one. -/
def listOf (mark : ListMark) (items : List (Bool × Bool × List Block)) : Block :=
  let isLoose := items.any (fun (_, loose, _) => loose) ||
    (items.drop 1).any fun (spaced, _, _) => spaced
  .list mark.number (!isLoose) (items.map fun (_, _, blocks) => blocks)

/-- Entries as blocks, with items in their lists. -/
def groupEntries : (fuel : Nat) → List Entry → List Block
  | 0, _ => []
  | _, [] => []
  | fuel + 1, .block b :: rest => b :: groupEntries fuel rest
  | fuel + 1, .item mark spaced loose blocks :: rest =>
    let (items, rest) := takeItems mark rest
    listOf mark ((spaced, loose, blocks) :: items) :: groupEntries fuel rest

/-- The blocks of a frame. -/
def Frame.blocks (f : Frame) : List Block :=
  groupEntries (f.entries.length + 1) f.entries.reverse

/-- Whether an entry is an item of the same list as one with the given mark. -/
def Entry.isItemWith (mark : ListMark) : Entry → Bool
  | .item m _ _ _ => m.joins mark
  | .block _ => false

/-- Whether the last part of the frame is an item of the same list. -/
def Frame.endsWithItem (f : Frame) (mark : ListMark) : Bool :=
  f.entries.head?.any (Entry.isItemWith mark)

/-- The entry that a frame becomes when it closes. -/
def Frame.close (f : Frame) : Option Entry :=
  match f.container with
  | .document => none
  | .quote => some (.block (.quote f.blocks))
  | .item mark _ => some (.item mark f.spaced f.loose f.blocks)

/-- Adds a closed part to the innermost frame. -/
def Reader.push (r : Reader) (e : Entry) : Reader :=
  match r.frames with
  | [] => r
  | f :: fs => { r with frames := { f with entries := e :: f.entries } :: fs }

/-- A paragraph's definitions are taken out; what is left is its text. -/
def takeDefinitions : (fuel : Nat) → Targets → List Char → Targets × List Char
  | 0, targets, cs => (targets, cs)
  | fuel + 1, targets, cs =>
    match readDefinition? cs with
    | none => (targets, cs)
    | some (label, target, rest) => takeDefinitions fuel (targets ++ [(label, target)]) rest

/-- The text of lines that are kept with the last one first. -/
def joinLinesBack (lines : List (List Char)) : List Char :=
  List.intercalate ['\n'] lines.reverse

/-- Takes the definitions out of the lines of a paragraph. -/
def Reader.paragraphText (r : Reader) (lines : List (List Char)) : Reader × List Char :=
  let text := joinLinesBack lines
  let (targets, text) := takeDefinitions (text.length + 1) r.targets text
  ({ r with targets }, dropGapEnd text)

/-- The lines of indented code without blank ones at the end. -/
def dropBlankLines (lines : List (List Char)) : List (List Char) :=
  lines.dropWhile fun line => line.all fun c => isGap c || c == '\n'

/-- Closes the innermost block. -/
def Reader.closeLeaf (r : Reader) : Reader :=
  let done := { r with leaf := .none }
  let whole := fun (lines : List (List Char)) => String.ofList lines.reverse.flatten
  match r.leaf with
  | .none => done
  | .paragraph lines =>
    let (done, text) := done.paragraphText lines
    if text.isEmpty then done else done.push (.block (.paragraph (String.ofList text)))
  | .fenced fence lines => done.push (.block (.code fence.language (whole lines)))
  | .indented lines => done.push (.block (.code "" (whole (dropBlankLines lines))))
  | .markup _ lines => done.push (.block (.markup (whole lines)))
  | .table alignments head rows => done.push (.block (.table alignments head rows.reverse))

/-- Closes the innermost container. -/
def Reader.closeFrame (r : Reader) : Reader :=
  match r.frames with
  | f :: g :: fs =>
    let r := { r with frames := g :: fs }
    match f.close with
    | some e => r.push e
    | none => r
  | _ => r

/-- Closes containers until as many are left. -/
def Reader.closeTo (depth : Nat) : (fuel : Nat) → Reader → Reader
  | 0, r => r
  | fuel + 1, r => if r.frames.length ≤ depth then r else closeTo depth fuel r.closeFrame

/-- Closes the innermost block and all containers but as many. -/
def Reader.keep (r : Reader) (depth : Nat) : Reader :=
  Reader.closeTo depth r.frames.length r.closeLeaf

/-! ### Following open containers -/

/-- The line behind the mark of a quote. -/
def afterQuoteMark? (l : Line) : Option Line :=
  if 4 ≤ l.indent then none
  else match l.dropIndent.rest with
    | '>' :: _ => some ((l.dropIndent.drop 1).advance 1)
    | _ => none

/-- What is left of a line that continues a container. `isEmpty` says that the
container holds nothing yet. -/
def continue? (isEmpty : Bool) (l : Line) : Container → Option Line
  | .document => some l
  | .quote => afterQuoteMark? l
  | .item _ width =>
    if l.isBlank then (if isEmpty then none else some l.dropIndent)
    else if width ≤ l.indent then some (l.advance width) else none

/-- Follows containers from the outermost on: how many go on, and what is left
of the line. -/
def follow (leafIsOpen : Bool) : List Frame → Line → Nat × Line
  | [], l => (0, l)
  | f :: fs, l =>
    let isEmpty := f.entries.isEmpty && fs.isEmpty && !leafIsOpen
    match continue? isEmpty l f.container with
    | none => (0, l)
    | some l =>
      let (n, l) := follow leafIsOpen fs l
      (n + 1, l)

/-! ### Opening new blocks -/

/-- Notes that something new starts in the innermost container. -/
def Reader.start (r : Reader) : Reader :=
  match r.frames with
  | f :: fs =>
    let loose := f.loose || (r.afterBlank && !f.entries.isEmpty)
    { r with frames := { f with loose } :: fs, afterBlank := false }
  | [] => r

/-- Opens a container. -/
def Reader.openFrame (r : Reader) (f : Frame) : Reader := { r with frames := f :: r.frames }

/-- Opens an item; a blank line before it counts for its list if the list goes
on, and for the container otherwise. -/
def Reader.openItem (r : Reader) (mark : ListMark) (width : Nat) : Reader :=
  if r.frames.head?.any fun f => f.endsWithItem mark then
    { r with afterBlank := false }.openFrame
      { container := .item mark width, spaced := r.afterBlank }
  else r.start.openFrame { container := .item mark width }

/-- Adds a block that is one line. -/
def Reader.addBlock (r : Reader) (b : Block) : Reader := r.start.push (.block b)

/-- The line behind the mark of an item, and the columns that further lines of
the item are indented by. -/
def afterListMark (l : Line) (length : Nat) : Line × Nat :=
  let offset := l.indent
  let behind := l.dropIndent.drop length
  let gap := behind.indent
  if behind.isBlank || 5 ≤ gap then (behind.advance 1, offset + length + 1)
  else (behind.advance gap, offset + length + gap)

/-- Whether the innermost block is a paragraph. -/
def Leaf.isParagraph : Leaf → Bool
  | .paragraph _ => true
  | _ => false

/-- Whether an item may start here: one that interrupts a paragraph is not
empty, and its number is one. -/
def mayStartItem (interrupts : Bool) (mark : ListMark) (length : Nat) (l : Line) : Bool :=
  !interrupts || (mark.number.all (· == 1) && !(l.dropIndent.drop length).isBlank)

/-- How a line goes on after its containers were followed. -/
inductive Step where
  /-- Another container was opened; the rest of the line is to be read. -/
  | opened (r : Reader) (l : Line)
  /-- The line is done. -/
  | done (r : Reader)
  /-- The line starts nothing. -/
  | text

/-- Reads what starts a block at the line. `depth` counts the containers that
go on, and `inParagraph` says that a paragraph goes on with them. -/
def startBlock (r : Reader) (depth : Nat) (inParagraph : Bool) (l : Line) : Step :=
  let isLazy := r.leaf.isParagraph
  let cs := l.content
  if l.isBlank then .text
  else if 4 ≤ l.indent then
    if isLazy then .text
    else
      let code := l.advance 4
      .done { (r.keep depth).start with leaf := .indented [code.fullChars] }
  else match afterQuoteMark? l with
    | some l => .opened ((r.keep depth).start.openFrame { container := .quote }) l
    | none =>
      match heading? cs, Fence.read? l.indent cs with
      | some (level, text), _ =>
        .done ((r.keep depth).addBlock (.heading level (String.ofList text)))
      | none, some fence => .done { (r.keep depth).start with leaf := .fenced fence [] }
      | none, none =>
        match if cs.head? == some '<' then markupEnd? isLazy (cs.drop 1) else none with
        | some ending =>
          let r := (r.keep depth).start
          let r := { r with leaf := .markup ending [l.fullChars] }
          .done (if ending.isIn cs then r.closeLeaf else r)
        | none =>
          if isRule cs then .done ((r.keep depth).addBlock .rule)
          else match ListMark.read? cs with
            | some (mark, length) =>
              if mayStartItem inParagraph mark length l then
                let (rest, width) := afterListMark l length
                .opened ((r.keep depth).openItem mark width) rest
              else .text
            | none => .text

/-- Makes a heading of a paragraph, if the line underlines it. -/
def underlined? (r : Reader) (l : Line) : Option Reader :=
  match r.leaf with
  | .paragraph lines =>
    if 4 ≤ l.indent then none
    else (underline? l.content).bind fun level =>
      let (done, text) := { r with leaf := .none }.paragraphText lines
      if text.isEmpty then none
      else some (done.push (.block (.heading level (String.ofList text))))
  | _ => none

/-- Makes a table of the last line of a paragraph, if the line gives its
columns. A head that is not the first line starts with a bar. -/
def tableStart? (r : Reader) (l : Line) : Option Reader :=
  match r.leaf with
  | .paragraph (head :: before) =>
    if 4 ≤ l.indent || !hasBar head || (!before.isEmpty && head.head? != some '|') then none
    else (readAlignments? l.content).bind fun alignments =>
      let cells := rowCells head
      if cells.length != alignments.length then none
      else
        let r := if before.isEmpty then { r with leaf := .none }
          else { r with leaf := .paragraph before }.closeLeaf.start
        some { r with leaf := .table alignments cells [] }
  | _ => none

/-- Whether a line cannot be the row of a table. -/
def interruptsTable (l : Line) : Bool :=
  let cs := l.content
  isRule cs || (heading? cs).isSome || (Fence.read? 0 cs).isSome || cs.head? == some '>' ||
    (ListMark.read? cs).isSome ||
    (cs.head? == some '<' && (markupEnd? true (cs.drop 1)).isSome)

/-- Adds the text of a line to the innermost block. -/
def addText (r : Reader) (depth : Nat) (l : Line) : Reader :=
  if l.isBlank then r.keep depth
  else match r.leaf with
    | .paragraph lines => { r with leaf := .paragraph (l.content :: lines) }
    | _ => { (r.keep depth).start with leaf := .paragraph [l.content] }

/-- Whether the innermost container is a quote. -/
def Reader.inQuote (r : Reader) : Bool :=
  match r.frames with
  | { container := .quote, .. } :: _ => true
  | _ => false

/-- Adds what is left of a line after new containers were opened. -/
def addRest : (fuel : Nat) → Reader → (depth : Nat) → (opened : Bool) → Line → Reader
  | 0, r, _, _, _ => r
  | fuel + 1, r, depth, opened, l =>
    let inParagraph := r.leaf.isParagraph && depth == r.frames.length
    match if inParagraph then tableStart? r l else none,
        if inParagraph then underlined? r l else none with
    | some r, _ => r
    | none, some r => r
    | none, none =>
      match startBlock r depth inParagraph l with
      | .done r => r
      | .opened r l => addRest fuel r r.frames.length true l
      | .text =>
        let r := addText r depth l
        if l.isBlank && !opened then { r with afterBlank := r.afterBlank || !r.inQuote } else r

/-- Adds a line to a block that takes lines as they are, if it goes on. -/
def addVerbatim? (r : Reader) (l : Line) : Option Reader :=
  match r.leaf with
  | .fenced fence lines =>
    if fence.isClosedBy l then some r.closeLeaf
    else
      let line := l.advance (min fence.indent l.indent)
      some { r with leaf := .fenced fence (line.fullChars :: lines) }
  | .indented lines =>
    if l.isBlank then
      some { r with leaf := .indented ((l.advance 4).fullChars :: lines), afterBlank := true }
    else if 4 ≤ l.indent then
      some { r with leaf := .indented ((l.advance 4).fullChars :: lines), afterBlank := false }
    else none
  | .markup ending lines =>
    if l.isBlank && ending == .blankLine then none
    else
      let r := { r with leaf := .markup ending (l.fullChars :: lines) }
      some (if ending.isIn l.rest then r.closeLeaf else r)
  | .table alignments head rows =>
    let cells := rowCells l.content
    if l.isBlank || interruptsTable l || cells.isEmpty then none
    else some { r with leaf := .table alignments head (fitRow alignments.length cells :: rows) }
  | _ => none

/-- Adds a line. -/
def addLine (r : Reader) (l : Line) : Reader :=
  let leafIsOpen := match r.leaf with
    | .none => false
    | _ => true
  let (depth, rest) := follow leafIsOpen r.frames.reverse l
  match if depth == r.frames.length then addVerbatim? r rest else none with
  | some r => r
  | none =>
    let r := match r.leaf with
      | .paragraph _ => r
      | _ => r.keep depth
    addRest (rest.rest.length + 2) r depth false rest

/-- The blocks of a text, and where the labels in it lead. -/
def readBlocks (text : String) : List Block × Targets :=
  let r := (linesOf text).foldl addLine {}
  let r := r.keep 1
  (match r.frames with
    | f :: _ => f.blocks
    | [] => [], r.targets)

end Markdown
end Docblock
