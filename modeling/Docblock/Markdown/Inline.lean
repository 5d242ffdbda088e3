/-
# Marks within a paragraph

Within a paragraph there are marks of emphasis, code, links, images, markup
and line breaks. Links are found first, from the inside out; marks of
emphasis are paired within each of them.

Key definitions: `Markdown.Inline`, `Markdown.Run`, `Markdown.pairRuns`,
`Markdown.readInlines`.
-/
import Docblock.Markdown.Link
import Docblock.Markdown.RawTag

namespace Docblock
namespace Markdown

/-- A part of a paragraph. -/
inductive Inline where
  | text (s : String)
  | code (s : String)
  | markup (s : String)
  | softBreak
  | hardBreak
  | emphasis (parts : List Inline)
  | strong (parts : List Inline)
  | struck (parts : List Inline)
  | link (destination title : String) (parts : List Inline)
  | image (destination title : String) (parts : List Inline)
  deriving Inhabited

/-! ### Runs of marks -/

/-- A run of marks of emphasis. -/
structure Run where
  mark : Char
  /-- The marks that are left. -/
  count : Nat
  /-- The marks that there were. -/
  length : Nat
  opens : Bool
  closes : Bool

/-- Something that was read; runs and brackets may still get a meaning. -/
inductive Piece where
  | part (i : Inline)
  | run (r : Run)
  /-- An opening bracket with the text behind it. -/
  | bracket (isImage isActive : Bool) (behind : List Char)

namespace Run

/-- Whether a run can start emphasis, given the characters beside it. -/
def canOpen (mark : Char) (length : Nat) (before after : Option Char) : Bool :=
  match after with
  | none => false
  | some next =>
    if Text.isBlank next then false
    else if mark == '*' && !Text.isPunctuation next then true
    else if mark == '~' && length > 1 then true
    else before.all fun prev => Text.isBlank prev || Text.isPunctuation prev

/-- Whether a run can end emphasis, given the characters beside it. -/
def canClose (mark : Char) (length : Nat) (before after : Option Char) : Bool :=
  match before with
  | none => false
  | some prev =>
    if Text.isBlank prev then false
    else if (mark == '*' || (mark == '~' && length > 1)) && !Text.isPunctuation prev then true
    else after.all fun next => Text.isBlank next || Text.isPunctuation next

/-- Whether the second run can end what the first starts. A run that could do
both does not pair if the lengths add up to a multiple of three, unless both
are such. -/
def pairsWith (first second : Run) : Bool :=
  first.mark == second.mark &&
  (first.mark != '~' || first.length == second.length) &&
  (!(second.opens && second.closes) && !(first.opens && first.closes) ||
    (first.length + second.length) % 3 != 0 || second.length % 3 == 0)

/-- The marks as text. -/
def text (r : Run) : Inline := .text (String.ofList (List.replicate r.count r.mark))

end Run

/-- A piece that gets no further meaning. -/
def Piece.plain : Piece → Inline
  | .part i => i
  | .run r => r.text
  | .bracket isImage _ _ => .text (if isImage then "![" else "[")

/-- What `n` marks on both sides make of the parts between them, from the
inside out. -/
def wrap (mark : Char) : (n : Nat) → List Inline → List Inline
  | 0, parts => parts
  | 1, parts => [if mark == '~' then .struck parts else .emphasis parts]
  | n + 2, parts => wrap mark n [if mark == '~' then .struck parts else .strong parts]

/-- The nearest run that the given one can pair with, among pieces that start
with the last one: the pieces behind it in order, the run, and those before
it. -/
def findOpener (closer : Run) : (inner : List Piece) → List Piece →
    Option (List Piece × Run × List Piece)
  | _, [] => none
  | inner, .run r :: before =>
    if r.opens && r.pairsWith closer then some (inner, r, before)
    else findOpener closer (.run r :: inner) before
  | inner, p :: before => findOpener closer (p :: inner) before

/-- The run with marks used up, if there are more. -/
def leftOver (r : Run) (used : Nat) : List Piece :=
  if used < r.count then [.run { r with count := r.count - used }] else []

/-- Pairs the runs among pieces. The first list holds what was passed, the last
piece first. -/
def pairRuns : (fuel : Nat) → (passed pieces : List Piece) → List Inline
  | 0, passed, pieces => (passed.reverse ++ pieces).map Piece.plain
  | _, passed, [] => passed.reverse.map Piece.plain
  | fuel + 1, passed, .run r :: rest =>
    match if r.closes then findOpener r [] passed else none with
    | some (inner, opener, before) =>
      let used := min r.count opener.count
      let parts := wrap r.mark used (inner.map Piece.plain)
      pairRuns fuel (parts.map .part ++ leftOver opener used ++ before) (leftOver r used ++ rest)
    | none => pairRuns fuel ((if r.opens then .run r else .part r.text) :: passed) rest
  | fuel + 1, passed, p :: rest => pairRuns fuel (p :: passed) rest

/-- The marks and pieces that are left to pair. -/
def pairingSize (pieces : List Piece) : Nat :=
  pieces.foldl (fun n p => n + match p with
    | .run r => r.count + 1
    | _ => 1) 1

/-- The parts that pieces stand for. -/
def finish (pieces : List Piece) : List Inline := pairRuns (pairingSize pieces) [] pieces

/-! ### Brackets -/

/-- Reads the destination and title behind the text of a link. -/
def readInlineTarget? : List Char → Option (Target × List Char)
  | '(' :: cs => do
    let start := cs.dropWhile isSpace
    let (destination, rest) ← match start with
      | ')' :: _ => some ("", start)
      | _ => readDestination? start
    let spaced := rest.dropWhile isSpace
    match spaced with
    | ')' :: rest => return (⟨destination, ""⟩, rest)
    | _ =>
      if spaced.length == rest.length then none
      else
        let (title, rest) ← readTitle? spaced
        match rest.dropWhile isSpace with
        | ')' :: rest => return (⟨destination, title⟩, rest)
        | _ => none
  | _ => none

/-- Where the text of a link leads, given what follows its bracket: behind it,
by a label behind it, or by itself as a label. -/
def targetOf? (targets : Targets) (label : List Char) (hasBracket : Bool) (cs : List Char) :
    Option (Target × List Char) :=
  match readInlineTarget? cs with
  | some found => some found
  | none =>
    match readLabel? cs with
    | some (l :: ls, rest) => (targets.find? (l :: ls)).map fun t => (t, rest)
    | some ([], rest) => if hasBracket then none else (targets.find? label).map fun t => (t, rest)
    | none => if hasBracket then none else (targets.find? label).map fun t => (t, cs)

/-- The last opening bracket among pieces that start with the last one: the
pieces behind it in order, the bracket, and those before it. -/
def findBracket : (inner : List Piece) → List Piece →
    Option (List Piece × (Bool × Bool × List Char) × List Piece)
  | _, [] => none
  | inner, .bracket isImage isActive behind :: before =>
    some (inner, (isImage, isActive, behind), before)
  | inner, p :: before => findBracket (p :: inner) before

/-- Links hold no links: brackets before a link cannot open another one. -/
def deactivate : Piece → Piece
  | .bracket false _ behind => .bracket false false behind
  | p => p

/-- Handles a closing bracket. The pieces start with the last one; the result
holds the pieces afterwards and the rest of the text. -/
def closeBracket (targets : Targets) (pieces : List Piece) (cs : List Char) :
    List Piece × List Char :=
  match findBracket [] pieces with
  | none => (.part (.text "]") :: pieces, cs)
  | some (inner, (isImage, isActive, behind), before) =>
    let label := behind.take (behind.length - cs.length - 1)
    let asText := .part (.text "]") :: inner.reverse ++
      .part (.text (if isImage then "![" else "[")) :: before
    if !isActive then (asText, cs)
    else match targetOf? targets label (label.contains '[') cs with
      | none => (asText, cs)
      | some (t, rest) =>
        if isImage then (.part (.image t.destination t.title (finish inner)) :: before, rest)
        else (.part (.link t.destination t.title (finish inner)) :: before.map deactivate, rest)

/-! ### Code and addresses -/

/-- Reads code up to a run of exactly as many backticks. -/
def readCodeTo? (ticks : Nat) : (fuel : Nat) → List Char → Option (List Char × List Char)
  | 0, _ => none
  | fuel + 1, cs =>
    let plain := cs.takeWhile (· != '\x60')
    match cs.drop plain.length with
    | [] => none
    | rest =>
      let run := rest.takeWhile (· == '\x60')
      let rest := rest.drop run.length
      if run.length == ticks then some (plain, rest)
      else (readCodeTo? ticks fuel rest).map fun (code, r) => (plain ++ run ++ code, r)

/-- Code as it is shown: on one line, without one blank on both sides. -/
def codeText (cs : List Char) : String :=
  let cs := cs.map fun c => if c == '\n' then ' ' else c
  if cs.head? == some ' ' && cs.getLast? == some ' ' && cs.any (· != ' ') then
    String.ofList (cs.drop 1).dropLast
  else String.ofList cs

/-- Whether a text is an address with a scheme. -/
def isUri (cs : List Char) : Bool :=
  let scheme := cs.takeWhile fun c => c.isAlphanum || c == '+' || c == '.' || c == '-'
  (cs.head?.any isAsciiLetter) && 2 ≤ scheme.length && scheme.length ≤ 32 &&
    (cs.drop scheme.length).head? == some ':' && cs.all fun c => 32 < c.toNat && c != '<'

/-- Whether a text is a part of the name of a host. -/
def isHostPart (cs : List Char) : Bool :=
  !cs.isEmpty && cs.length ≤ 63 && cs.all (fun c => c.isAlphanum || c == '-') &&
    cs.head? != some '-' && cs.getLast? != some '-'

/-- Whether a text is a mail address. -/
def isMailAddress (cs : List Char) : Bool :=
  let isUserChar := fun c => c.isAlphanum || ".!#$%&'*+/=?^_\x60\x7b|\x7d~-".toList.contains c
  let user := cs.takeWhile isUserChar
  match cs.drop user.length with
  | '@' :: host => !user.isEmpty && (Text.splitChars (· == '.') host).all isHostPart
  | _ => false

/-- Reads an address in angle brackets, given what follows the `<`. -/
def autolink? (cs : List Char) : Option (Inline × List Char) :=
  match cs.dropWhile (· != '>') with
  | [] => none
  | _ :: rest =>
    let address := cs.takeWhile (· != '>')
    let text := String.ofList address
    if isUri address then some (.link text "" [.text text], rest)
    else if isMailAddress address then some (.link ("mailto:" ++ text) "" [.text text], rest)
    else none

/-! ### Reading -/

/-- What the next characters of a text are: a piece and the rest. The
characters before and the targets of links are given. -/
def nextPiece (before : Option Char) : List Char → Piece × List Char
  | [] => (.part (.text ""), [])
  | '\\' :: '\n' :: rest => (.part .hardBreak, rest)
  | '\\' :: c :: rest =>
    if Text.isAsciiPunctuation c then (.part (.text (String.singleton c)), rest)
    else (.part (.text "\\"), c :: rest)
  | '\n' :: rest => (.part .softBreak, rest)
  | '&' :: cs =>
    match reference? cs with
    | some (s, rest) => (.part (.text s), rest)
    | none => (.part (.text "&"), cs)
  | '<' :: cs =>
    match autolink? cs, rawMarkup? cs with
    | some (i, rest), _ => (.part i, rest)
    | none, some (markup, rest) => (.part (.markup (String.ofList markup)), rest)
    | none, none => (.part (.text "<"), cs)
  | '!' :: '[' :: rest => (.bracket true true rest, rest)
  | '[' :: rest => (.bracket false true rest, rest)
  | c :: cs =>
    if c == '\x60' then
      let more := cs.takeWhile (· == c)
      let rest := cs.drop more.length
      match readCodeTo? (more.length + 1) (rest.length + 1) rest with
      | some (code, rest) => (.part (.code (codeText code)), rest)
      | none => (.part (.text (String.ofList (c :: more))), rest)
    else if c == '*' || c == '_' || c == '~' then
      let more := cs.takeWhile (· == c)
      let rest := cs.drop more.length
      let length := more.length + 1
      let opens := Run.canOpen c length before rest.head?
      let closes := Run.canClose c length before rest.head?
      if (opens || closes) && (c != '~' || length ≤ 2) then
        (.run { mark := c, count := length, length, opens, closes }, rest)
      else (.part (.text (String.ofList (c :: more))), rest)
    else if isGap c then
      let more := cs.takeWhile isGap
      match cs.drop more.length with
      | [] => (.part (.text ""), [])
      | '\n' :: rest => (.part (if more.isEmpty then .softBreak else .hardBreak), rest)
      | rest => (.part (.text (String.ofList (c :: more))), rest)
    else (.part (.text (String.singleton c)), cs)

/-- Reads a text into pieces, the last one first. -/
def readPieces (targets : Targets) : (fuel : Nat) → (before : Option Char) → List Char →
    List Piece → List Piece
  | 0, _, _, pieces => pieces
  | _, _, [], pieces => pieces
  | fuel + 1, before, c :: cs, pieces =>
    let (pieces, rest) := if c == ']' then closeBracket targets pieces cs
      else
        let (piece, rest) := nextPiece before (c :: cs)
        (piece :: pieces, rest)
    let used := (c :: cs).take ((c :: cs).length - rest.length)
    readPieces targets fuel (used.getLast?.or before) rest pieces

/-- The parts of a text. -/
def readInlines (targets : Targets) (text : String) : List Inline :=
  let cs := text.toList
  finish (readPieces targets cs.length none cs []).reverse

end Markdown
end Docblock
