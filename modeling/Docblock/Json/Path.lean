/-
# Dotted paths

A dotted path such as `deprecated.content` names a place inside a value:
each part is a key of an object. Reading fails where a part is missing;
writing replaces what is there and otherwise changes nothing.

Key definitions: `Json.getAt?`, `Json.setAt`, `Json.getPath?`, `Json.setPath`.
-/
import Docblock.Json.Basic
import Docblock.Text.Cut

namespace Docblock
namespace Json

/-- The value at the place that the keys name. -/
def getAt? : List String → Json → Option Json
  | [], v => some v
  | key :: keys, v => (v.get? key).bind (getAt? keys)

/-- The value with what the keys name replaced; unchanged if they name
nothing. -/
def setAt (new : Json) : List String → Json → Json
  | [], _ => new
  | key :: keys, .obj fields =>
    match Fields.get? key fields with
    | some v => .obj (Fields.set key (setAt new keys v) fields)
    | none => .obj fields
  | _ :: _, v => v

/-- The value at a dotted path. -/
def getPath? (v : Json) (path : String) : Option Json :=
  getAt? (Text.split '.' path) v

/-- The value with what stands at a dotted path replaced. -/
def setPath (v : Json) (path : String) (new : Json) : Json :=
  setAt new (Text.split '.' path) v

end Json
end Docblock
