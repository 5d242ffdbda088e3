/-
# Tags for OpenAPI documents

`@openapi` holds a document or refers to one in a file. `@openapi-path`,
`@openapi-schema` and `@openapi-operation` hold one part of a document.

Key definitions: `readOpenApi`, `readOpenApiPath`, `readOpenApiSchema`,
`readOpenApiOperation`, `openApiTags`.
-/
import Docblock.OpenApi.Endpoint
import Docblock.OpenApi.External
import Docblock.Json.Printer

namespace Docblock
namespace Tag

open Pattern

/-- Reads a document; without a file it is the content itself. -/
def readOpenApi (tree : FileTree) : Reader := fun content _ memory =>
  match Text.nonBlank? content with
  | none => { result := .ok none, memory }
  | some content =>
    match OpenApi.ExternalReference.read? content with
    | some r =>
      match OpenApi.loadExternal tree r memory.filename with
      | .ok e => {
          result := .ok (some (.obj [("openapi", e.document), ("sourceFile", .str e.path),
            ("pathSpec", .str e.pathSpec)]))
          memory }
      | .error remark => { result := .ok none, memory, remarks := [remark] }
    | none =>
      match OpenApi.load? content with
      | some (.obj fields) => { result := .ok (OpenApi.convertDocument (.obj fields)), memory }
      | some _ => { result := .ok none, memory }
      | none => {
          result := .ok none
          memory
          remarks := ["failed to parse @openapi content: not a document"] }

/-- The first line and the lines below it. -/
def headAndBody (content : String) : String × String :=
  (Text.cutOnce? "\n" content).getD (content, "")

/-- The value of a definition; an empty object if there is none, with a remark
if the text is no value. -/
def loadDefinition (text name : String) : Json × List String :=
  if text.isEmpty then (.obj [], [])
  else match OpenApi.load? text with
    | some .null => (.obj [], [])
    | some v => (v, [])
    | none => (.obj [], ["failed to parse OpenAPI definition for " ++ name ++ ": not a document"])

/-- The path in a line: the whole line, or its first word with a slash in
front. -/
def pathInLine? (line : String) : Option String :=
  if Text.startsWith line "/" then some line
  else (Text.words line).find? fun word => Text.startsWith word "/"

/-- Reads a path in the first line and its operations below. -/
def readOpenApiPath : Reader := fun content _ memory =>
  let (head, body) := headAndBody (Text.trim content)
  match pathInLine? (Text.trim head) with
  | none => { result := .ok none, memory }
  | some path =>
    let (operations, remarks) := loadDefinition (Text.trim body) path
    let result := (OpenApi.firstOperation? operations).map fun (method, operation) =>
      let fields := OpenApi.endpointFields operation method path ++
        [("openapi", Json.obj [("paths", .obj [(path, operations)])])]
      Json.obj (fields.set? "group" ((OpenApi.operationGroup? operation).map .str))
    { result := .ok result, memory, remarks }

/-- A word in front of the name of a schema. -/
def schemaWord : Pattern :=
  all [.textStart, any (["schema", "component", "model"].map OpenApi.anyCase), blanks1]

/-- A type as it is shown: a text as it is, another value as JSON. -/
def shownType (v : Json) : String :=
  match v with
  | .str s => s
  | v => v.compact

/-- Reads the name of a schema in the first line and the schema below. -/
def readOpenApiSchema : Reader := fun content _ memory =>
  let (head, body) := headAndBody (Text.trim content)
  let name := schemaWord.replaceFirst (fun _ => "") (Text.trim head)
  if name.isEmpty then { result := .ok none, memory }
  else
    let (schema, remarks) := loadDefinition (Text.trim body) name
    let text := fun key => OpenApi.text? key schema
    let described := (text "description").getD ("OpenAPI schema definition for " ++ name)
    let description := match schema.getTruthy? "type" with
      | some kind => Text.trim (described ++ " (Type: " ++ shownType kind ++ ")")
      | none => described
    let version := (((text "x-version").or (text "version")).or (text "apiVersion")).getD
      OpenApi.defaultVersion
    let value := Json.obj [
      ("type", .str "openapi-schema"),
      ("name", .str (underscored name)),
      ("title", .str ((text "title").getD ("Schema: " ++ name))),
      ("group", .str "Schemas"),
      ("description", .str description),
      ("version", .str version),
      ("openapi", .obj [("components", .obj [("schemas", .obj [(name, schema)])])])]
    { result := .ok (some value), memory, remarks }

/-- The value of an operation. -/
def operationValue (operation : Json) : Json :=
  let text := fun key => OpenApi.text? key operation
  let name := ((text "operationId").or (text "summary")).getD "Operation"
  .obj [
    ("type", .str "openapi-operation"),
    ("name", .str (underscored name)),
    ("title", .str ((text "summary").getD name)),
    ("description", .str ((text "description").getD "")),
    ("version", .str (OpenApi.operationVersion operation)),
    ("openapi", operation),
    ("group", .str ((OpenApi.operationGroup? operation).getD "Operations"))]

/-- Reads an operation. -/
def readOpenApiOperation : Reader := fun content _ memory =>
  match Text.nonBlank? content with
  | none => { result := .ok none, memory }
  | some content =>
    match OpenApi.load? content with
    | some (.obj fields) => { result := .ok (some (operationValue (.obj fields))), memory }
    | some _ => { result := .ok none, memory }
    | none => {
        result := .ok none
        memory
        remarks := ["failed to parse @openapi-operation content: not a document"] }

/-- The tags for documents. -/
def openApiTags (tree : FileTree) : List (String × Tag) := [
  ("openapi", inserted "local" (readOpenApi tree)),
  ("openapi-path", inserted "local" readOpenApiPath),
  ("openapi-schema", inserted "local" readOpenApiSchema),
  ("openapi-operation", inserted "local" readOpenApiOperation)]

end Tag
end Docblock
