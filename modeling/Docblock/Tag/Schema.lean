/-
# References to schemas

`@apiSchema (group) {interface=Name} element` and `@apiSchema (group)
{jsonschema=path.json} element` stand for one parameter element for each
property of the schema.

Key definitions: `SchemaReference`, `SchemaReference.read?`,
`schemaElements`, `schemaTags`.
-/
import Docblock.Tag.Basic
import Docblock.Schema.Properties
import Docblock.TypeScript.Interface
import Docblock.Json.Parser

namespace Docblock
namespace Tag

open Pattern

/-- A reference to a schema. -/
structure SchemaReference where
  group : String
  kind : String
  value : String
  /-- The tag of the elements that it stands for. -/
  element : String

/-- A group in parentheses, kind and value in braces, and a tag. -/
def schemaPattern : Pattern :=
  all [.textStart, opt (all [lit "(", .group 1 (charsLazy1 notNewline), lit ")"]), blanks, lit "\x7b",
    .group 2 (charsLazy1 notNewline), lit "=", .group 3 (charsLazy1 notNewline), lit "\x7d", blanks,
    opt (.group 4 (charsLazy1 notNewline)), .textEnd]

/-- Whether a text has the marks of a reference. -/
def looksLikeSchema (content : String) : Bool :=
  Text.contains content "\x7b" && Text.contains content "=" && Text.contains content "\x7d"

/-- Reads a reference, which is a single line without comments. -/
def SchemaReference.read? (content : String) : Option SchemaReference :=
  match Text.nonBlank? content with
  | none => none
  | some content =>
    if Text.contains content "\n" || Text.contains content "//" || !looksLikeSchema content then none
    else (schemaPattern.find? content).map fun m =>
      ⟨m.group 1, m.group 2, m.group 3, (m.group? 4).getD "apiParam"⟩

/-- A reference as a value. -/
def SchemaReference.toJson (r : SchemaReference) : Json :=
  .obj [("group", .str r.group), ("schemaType", .str r.kind), ("schemaValue", .str r.value),
    ("element", .str r.element)]

/-- The tag for references that no hook has replaced. -/
def schemaTags : List (String × Tag) :=
  [("apiSchema", pushed "local"
    (.ofContent fun content => (SchemaReference.read? content).map SchemaReference.toJson))]

/-! ### The elements of a reference -/

/-- The elements for an interface; one element for the whole if there is no
such interface. -/
def interfaceElements (tree : FileTree) (r : SchemaReference) (filename : String) :
    List Element × List String :=
  match TypeScript.Interface.find tree r.value filename with
  | (some i, remarks) => (i.toElements r.element r.group, remarks)
  | (none, remarks) =>
    let lead := if r.group.isEmpty then "" else "(" ++ r.group ++ ") "
    let content := lead ++ "\x7bObject\x7d data " ++ r.value ++ " interface"
    ([.new r.element content ("@" ++ r.element ++ " " ++ content)],
      remarks ++ ["could not find TypeScript interface '" ++ r.value ++ "' in source files"])

/-- The text with its first opening brace replaced. -/
def replaceBrace (new text : String) : String :=
  match Text.cutOnce? "\x7b" text with
  | some (before, after) => before ++ new ++ after
  | none => text

/-- The elements for a JSON Schema in a file. -/
def jsonSchemaElements (tree : FileTree) (r : SchemaReference) (filename : String) :
    List Element × List String :=
  match (tree.readText? (Path.beside filename r.value)).bind Json.parse? with
  | none => ([], ["could not parse JSON schema at " ++ r.value ++ ": not readable"])
  | some schema =>
    ((Schema.parameterLines schema).map fun line =>
      let source := "@" ++ r.element ++ " " ++ line
      if r.group.isEmpty then .new r.element line source
      else
        let group := "(" ++ r.group ++ ") "
        .new r.element (group ++ line) (replaceBrace (group ++ "\x7b") source), [])

/-- The elements that a reference stands for. -/
def schemaElements (tree : FileTree) (r : SchemaReference) (filename : String) :
    List Element × List String :=
  match r.kind with
  | "interface" => interfaceElements tree r filename
  | "jsonschema" => jsonSchemaElements tree r filename
  | kind => ([], ["unknown @apiSchema type '" ++ kind ++ "'"])

end Tag
end Docblock
