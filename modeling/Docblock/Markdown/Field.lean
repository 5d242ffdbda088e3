/-
# Fields with rendered text

A rendered field stands on one line: line breaks become spaces, except inside
preformatted text.

Key definitions: `Markdown.Renderer`, `Markdown.collapseLineBreaks`,
`Markdown.renderField`.
Key theorems: `Markdown.length_lt_of_preformatted`.
-/
import Docblock.Text.Blank
import Docblock.Text.Cut

namespace Docblock
namespace Markdown

/-- Turns the text of a field into markup. -/
abbrev Renderer := String → String

/-- The tag before preformatted text. -/
def preOpen : List Char := "<pre>".toList

/-- The tag after preformatted text. -/
def preClose : List Char := "</pre>".toList

/-- Each line break becomes one space. -/
def joinLines : List Char → List Char
  | [] => []
  | '\r' :: '\n' :: cs => ' ' :: joinLines cs
  | c :: cs => (if c == '\n' || c == '\r' then ' ' else c) :: joinLines cs

/-- Behind preformatted text there is less than in the text with its tags. -/
theorem length_lt_of_preformatted {cs before inside kept after : List Char}
    (hopen : Text.cutAt? preOpen cs = some (before, inside))
    (hclose : Text.cutAt? preClose inside = some (kept, after)) : after.length < cs.length := by
  have htag : 0 < preOpen.length := by decide
  rw [Text.eq_append_of_cutAt? hopen, Text.eq_append_of_cutAt? hclose]
  simp only [List.length_append]
  omega

/-- `collapseLineBreaks` on characters. -/
def collapseChars (cs : List Char) : List Char :=
  match hopen : Text.cutAt? preOpen cs with
  | none => joinLines cs
  | some (before, inside) =>
    match hclose : Text.cutAt? preClose inside with
    | none => joinLines before ++ preOpen ++ inside
    | some (kept, after) =>
      have _ := length_lt_of_preformatted hopen hclose
      joinLines before ++ preOpen ++ kept ++ preClose ++ collapseChars after
termination_by cs.length

/-- Line breaks become spaces, except inside preformatted text. -/
def collapseLineBreaks (markup : String) : String :=
  String.ofList (collapseChars markup.toList)

/-- A field as it is stored: on one line, without blanks around it, and
without paragraph tags if they are not wanted. -/
def renderField (render : Renderer) (text : String) (dropParagraphs : Bool) : String :=
  let rendered := Text.trim (collapseLineBreaks (render text))
  if dropParagraphs then Text.replace "</p>" "" (Text.replace "<p>" "" rendered) else rendered

end Markdown
end Docblock
