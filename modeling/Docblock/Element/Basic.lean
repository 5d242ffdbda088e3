/-
# Elements

An element is one tag with its text inside a documentation comment, such as
`@apiParam {String} name The name`.

Key definitions: `Element`, `Element.new`.
-/
import Docblock.Text.Case

namespace Docblock

/-- A tag with its text. -/
structure Element where
  /-- The tag in small letters, by which its reader is found. -/
  name : String
  /-- The tag as written. -/
  sourceName : String
  /-- The text behind the tag, up to the next tag. -/
  content : String
  /-- The whole text, the tag included. -/
  source : String
  deriving DecidableEq, Repr, Inhabited

namespace Element

/-- The element of a tag as written. -/
def new (sourceName content source : String) : Element :=
  ⟨Text.lower sourceName, sourceName, content, source⟩

end Element
end Docblock
