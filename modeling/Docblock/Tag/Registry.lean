/-
# The tags of a run

Tags are looked up by their names in small letters. A tag that is added under
a name that is taken replaces the earlier one.

Key definitions: `Registry`, `Registry.add`, `Registry.find?`,
`Registry.builtin`.
-/
import Docblock.Tag.Endpoint
import Docblock.Tag.Parameter
import Docblock.Tag.Example
import Docblock.Tag.Schema
import Docblock.Tag.Mqtt
import Docblock.Tag.Model
import Docblock.Tag.Iot
import Docblock.Tag.OpenApi
import Docblock.Tag.FileHeader
import Docblock.Tag.Tsdoc

namespace Docblock

/-- The known tags, by name. -/
structure Registry where
  tags : List (String × Tag) := []

namespace Registry

/-- Puts a tag under a name, in place of the one that is there. -/
def put (name : String) (tag : Tag) : List (String × Tag) → List (String × Tag)
  | [] => [(name, tag)]
  | (n, t) :: rest => if n == name then (n, tag) :: rest else (n, t) :: put name tag rest

/-- Adds a tag, or replaces the one of this name. -/
def add (r : Registry) (name : String) (tag : Tag) : Registry :=
  ⟨put (Text.lower name) tag r.tags⟩

/-- The tag of a name in small letters. -/
def find? (r : Registry) (name : String) : Option Tag :=
  (r.tags.find? fun entry => entry.1 == name).map Prod.snd

/-- The number of tags. -/
def size (r : Registry) : Nat := r.tags.length

/-- All tags that come with the program. -/
def builtin (tree : FileTree) : Registry :=
  (Tag.endpointTags ++ Tag.parameterTags ++ Tag.exampleTags ++ Tag.schemaTags ++ Tag.mqttTags ++
    Tag.modelTags ++ Tag.iotTags ++ Tag.openApiTags tree ++ Tag.fileHeaderTags ++
    Tag.tsdocTags).foldl (fun r (name, tag) => r.add name tag) {}

/-- A tag that was just added is found. -/
theorem find?_add_self (r : Registry) (name : String) (tag : Tag) :
    (r.add name tag).find? (Text.lower name) = some tag := by
  obtain ⟨tags⟩ := r
  simp only [add, find?]
  induction tags with
  | nil => simp [put]
  | cons entry rest ih =>
    obtain ⟨n, t⟩ := entry
    by_cases h : n = Text.lower name
    · simp [put, h]
    · simp [put, h, ih]

end Registry
end Docblock
