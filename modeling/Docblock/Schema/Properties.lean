/-
# Parameters of a JSON Schema

Each property of an object schema becomes the text of a parameter, `{type}
field description`, with the field in brackets unless the schema requires it.
Properties of nested objects follow their object, under dotted names.

Key definitions: `Schema.typeName`, `Schema.parameterLines`.
-/
import Docblock.Json.Basic

namespace Docblock
namespace Schema

mutual

/-- The documentation's name of the type of a schema. -/
def typeName : Json → String
  | .obj fields =>
    match (Fields.get? "type" fields).bind Json.str? with
    | some "string" => "String"
    | some "number" => "Number"
    | some "integer" => "Number"
    | some "boolean" => "Boolean"
    | some "array" => itemsType fields
    | some "object" => "Object"
    | _ => "Mixed"
  | _ => "Mixed"

/-- The type of an array, by the first entry for its items. -/
def itemsType : List (String × Json) → String
  | [] => "Array"
  | (key, v) :: rest => if key == "items" then typeName v ++ "[]" else itemsType rest

end

/-- Whether a schema describes an object. -/
def isObject (schema : Json) : Bool :=
  schema.getStr? "type" == some "object"

/-- The names that a schema requires. -/
def requiredNames (schema : Json) : List String :=
  (((schema.get? "required").bind Json.arr?).getD []).filterMap Json.str?

/-- The text of one parameter. -/
def parameterLine (required : List String) (name key : String) (property : Json) : String :=
  let field := if required.contains key then name else "[" ++ name ++ "]"
  "\x7b" ++ typeName property ++ "\x7d " ++ field ++ " " ++
    (property.getStr? "description").getD ""

/-- The name of a property below another one. -/
def dotted (above key : String) : String :=
  if above.isEmpty then key else above ++ "." ++ key

mutual

/-- The texts of the parameters of a schema, whose name is `above`. -/
def linesOf (above : String) : Json → List String
  | .obj fields =>
    if isObject (.obj fields) then linesIn above (requiredNames (.obj fields)) fields else []
  | _ => []

/-- The texts for the first entry with properties. -/
def linesIn (above : String) (required : List String) : List (String × Json) → List String
  | [] => []
  | (key, v) :: rest =>
    if key == "properties" then linesOfProperties above required v
    else linesIn above required rest

/-- The texts for the properties. -/
def linesOfProperties (above : String) (required : List String) : Json → List String
  | .obj properties => linesOfEntries above required properties
  | _ => []

/-- The texts for the properties one after the other. -/
def linesOfEntries (above : String) (required : List String) :
    List (String × Json) → List String
  | [] => []
  | (key, property) :: rest =>
    parameterLine required (dotted above key) key property ::
      (linesOf (dotted above key) property ++ linesOfEntries above required rest)

end

/-- The texts of the parameters of a schema. -/
def parameterLines (schema : Json) : List String := linesOf "" schema

end Schema
end Docblock
