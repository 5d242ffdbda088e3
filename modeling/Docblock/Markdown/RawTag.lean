/-
# Markup in Markdown

Tags, comments, instructions, declarations and literal sections of the
target format may stand in a Markdown text and are passed through.

Key definitions: `Markdown.afterOpenTag?`, `Markdown.afterClosingTag?`,
`Markdown.rawMarkup?`.
-/
import Docblock.Text.Blank
import Docblock.Text.Cut

namespace Docblock
namespace Markdown

/-- Blanks and line ends within a tag. -/
def isTagGap (c : Char) : Bool := c == ' ' || c == '\t' || c == '\n'

/-- A letter of ASCII. -/
def isAsciiLetter (c : Char) : Bool := c.isAlpha

/-- What follows the name of a tag. -/
def afterTagName? : List Char → Option (List Char)
  | c :: cs =>
    if isAsciiLetter c then some (cs.dropWhile fun c => c.isAlphanum || c == '-') else none
  | [] => none

/-- What follows the name of an attribute. -/
def afterAttributeName? : List Char → Option (List Char)
  | c :: cs =>
    if isAsciiLetter c || c == '_' || c == ':' then
      some (cs.dropWhile fun c => c.isAlphanum || c == '_' || c == '.' || c == ':' || c == '-')
    else none
  | [] => none

/-- What follows the value of an attribute. -/
def afterAttributeValue? : List Char → Option (List Char)
  | [] => none
  | c :: cs =>
    if c == '\'' || c == '"' then
      match cs.dropWhile (· != c) with
      | [] => none
      | _ :: rest => some rest
    else
      let isBare := fun c => !(isTagGap c || ['"', '\'', '=', '<', '>', '\x60'].contains c)
      if isBare c then some (cs.dropWhile isBare) else none

/-- What follows an attribute: its name, and its value if it has one. -/
def afterAttribute? (cs : List Char) : Option (List Char) := do
  let rest ← afterAttributeName? cs
  match rest.dropWhile isTagGap with
  | '=' :: value => afterAttributeValue? (value.dropWhile isTagGap)
  | _ => return rest

/-- What follows the attributes of a tag and its end. -/
def afterAttributes? : (fuel : Nat) → List Char → Option (List Char)
  | 0, _ => none
  | fuel + 1, cs =>
    match cs.dropWhile isTagGap with
    | '>' :: rest => some rest
    | '/' :: '>' :: rest => some rest
    | rest =>
      if rest.length == cs.length then none
      else (afterAttribute? rest).bind (afterAttributes? fuel)

/-- What follows an opening tag, given what follows its `<`. -/
def afterOpenTag? (cs : List Char) : Option (List Char) := do
  let rest ← afterTagName? cs
  afterAttributes? (rest.length + 1) rest

/-- What follows a closing tag, given what follows its `<`. -/
def afterClosingTag? : List Char → Option (List Char)
  | '/' :: cs => do
    match (← afterTagName? cs).dropWhile isTagGap with
    | '>' :: rest => return rest
    | _ => none
  | _ => none

/-- What follows the first occurrence of a piece of text. -/
def after? (piece : String) (cs : List Char) : Option (List Char) :=
  (Text.cutAt? piece.toList cs).map Prod.snd

/-- What follows a comment, instruction, declaration or literal section, given
what follows its `<`. -/
def afterSpecial? : List Char → Option (List Char)
  | '!' :: '-' :: '-' :: '>' :: rest => some rest
  | '!' :: '-' :: '-' :: '-' :: '>' :: rest => some rest
  | '!' :: '-' :: '-' :: rest => after? "-->" rest
  | '?' :: rest => after? "?>" rest
  | '!' :: '[' :: 'C' :: 'D' :: 'A' :: 'T' :: 'A' :: '[' :: rest => after? "]]>" rest
  | '!' :: c :: rest => if isAsciiLetter c then after? ">" rest else none
  | _ => none

/-- Markup at the start of a text, given what follows its `<`: the markup and
the rest. -/
def rawMarkup? (cs : List Char) : Option (List Char × List Char) :=
  (((afterOpenTag? cs).or (afterClosingTag? cs)).or (afterSpecial? cs)).map fun rest =>
    ('<' :: cs.take (cs.length - rest.length), rest)

end Markdown
end Docblock
