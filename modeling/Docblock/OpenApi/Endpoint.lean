/-
# Endpoints from OpenAPI documents

A document with paths gives the endpoint of its first operation: parameters,
body and responses become fields. A single operation and a document with
only components or information become entries of their own.

Key definitions: `OpenApi.schemaFields`, `OpenApi.responseFields`,
`OpenApi.convertPaths`, `OpenApi.convertDocument`.
-/
import Docblock.OpenApi.Document

namespace Docblock
namespace OpenApi

/-! ### Types and references -/

mutual

/-- The documentation's name of the type of a schema. -/
def typeName : Json → String
  | .obj fields =>
    match (Fields.get? "type" fields).bind Json.str? with
    | some "integer" => "Number"
    | some "number" => "Number"
    | some "boolean" => "Boolean"
    | some "array" => itemsType fields
    | some "object" => "Object"
    | some "string" =>
      match (Fields.get? "format" fields).bind Json.str? with
      | some "binary" => "File"
      | some "date-time" => "Date"
      | _ => "String"
    | _ => "String"
  | _ => "String"

/-- The type of an array, by the first entry for its items. -/
def itemsType : List (String × Json) → String
  | [] => "String[]"
  | (key, v) :: rest => if key == "items" then typeName v ++ "[]" else itemsType rest

end

/-- The schema that a reference to the components leads to. -/
def resolve (components : Option Json) (schema : Json) : Json :=
  match text? "$ref" schema, components with
  | some reference, some components =>
    (((Text.strip? "#/components/schemas/" reference).bind fun name =>
      (components.get? "schemas").bind fun schemas => schemas.get? name)).getD schema
  | _, _ => schema

/-! ### Fields -/

/-- A parameter of an operation as a field. -/
def parameterField (parameter : Json) : Json :=
  let schema := parameter.get? "schema"
  Json.ofPresent [
    ("group", Json.str "Parameter"),
    ("type", Json.str (match schema with
      | some s => typeName s
      | none => "String")),
    ("optional", Json.bool (parameter.getTruthy? "required").isNone),
    ("field", parameter.get? "name"),
    ("description", Json.str ((text? "description" parameter).getD "")),
    ("defaultValue", schema.bind fun s => s.getTruthy? "example")]

/-- Whether a status key stands for an error: a number of at least 400. -/
def isErrorStatus (status : String) : Bool :=
  match status.toList.takeWhile Char.isDigit with
  | [] => false
  | digits =>
    let n := Json.digitsValue digits
    n < Nat.pow 2 32 && 400 ≤ n

/-- The group of the fields of a response. -/
def statusGroup (status : Option String) : String :=
  if status.any isErrorStatus then "Error" else "Success"

/-- Whether a schema requires a field. -/
def requires (schema : Json) (field : String) : Bool :=
  (((schema.get? "required").bind Json.arr?).getD []).any fun f => f.str? == some field

/-- The properties of a schema of object type. -/
def objectProperties? (schema : Json) : Option Fields :=
  if schema.getStr? "type" == some "object" then (schema.get? "properties").bind Json.obj? else none

/-- The description of a property, its own or that of its reference. -/
def describeProperty (resolved written : Json) : String :=
  ((text? "description" resolved).or (text? "description" written)).getD ""

/-- The fields for the properties of an object. -/
def objectFields (group : String) (components : Option Json) (schema : Json) (properties : Fields) :
    List Json :=
  properties.map fun (name, property) =>
    let resolved := resolve components property
    Json.ofPresent [
      ("group", Json.str group),
      ("type", Json.str (typeName resolved)),
      ("optional", Json.bool (!requires schema name)),
      ("field", Json.str name),
      ("description", Json.str (describeProperty resolved property)),
      ("defaultValue", resolved.getTruthy? "example"),
      ("allowedValues", resolved.getTruthy? "enum")]

/-- The fields for an array: those of its items, or one for all of them. -/
def arrayFields (group : String) (components : Option Json) (schema items : Json) : List Json :=
  let item := resolve components items
  match objectProperties? item with
  | some properties => properties.map fun (name, property) =>
    let resolved := resolve components property
    Json.ofPresent [
      ("group", Json.str group),
      ("type", Json.str (typeName resolved ++ "[]")),
      ("optional", Json.bool (!requires item name)),
      ("field", Json.str (name ++ "[]")),
      ("description", Json.str (describeProperty resolved property)),
      ("defaultValue", resolved.getTruthy? "example")]
  | none => [.obj [
      ("group", .str group),
      ("type", .str (typeName item ++ "[]")),
      ("field", .str "items[]"),
      ("description", .str ((text? "description" schema).getD "")),
      ("optional", .bool false)]]

/-- The items of a schema of array type. -/
def arrayItems? (schema : Json) : Option Json :=
  if schema.getStr? "type" == some "array" then schema.getTruthy? "items" else none

/-- The fields of a schema in a body or response. -/
def schemaFields (components : Option Json) (contentType : String) (status : Option String)
    (schema : Json) : List Json :=
  let group := statusGroup status
  let resolved := resolve components schema
  match objectProperties? resolved, arrayItems? resolved with
  | some properties, _ => objectFields group components resolved properties
  | none, some items => arrayFields group components resolved items
  | none, none =>
    let field := if contentType == "multipart/form-data" then "file"
      else ((text? "title" resolved).map Text.lower).getD "data"
    [.obj [
      ("group", .str group),
      ("type", .str (typeName resolved)),
      ("field", .str field),
      ("description", .str (describeProperty resolved schema)),
      ("optional", .bool false)]]

/-- The first kind of content with its description. -/
def firstContent? (v : Json) : Option (String × Json) :=
  ((v.get? "content").bind Json.obj?).bind List.head?

/-- The fields of the first kind of content. -/
def contentFields (components : Option Json) (status : Option String) (v : Json) : List Json :=
  match firstContent? v with
  | none => []
  | some (contentType, media) =>
    match media.get? "schema" with
    | some schema => schemaFields components contentType status schema
    | none => []

/-- The fields of one response; without content it is one field, named by its
status. -/
def oneResponse (components : Option Json) (status : String) (response : Json) : List Json :=
  match (response.get? "content").bind Json.obj? with
  | some _ => contentFields components (some status) response
  | none => [.obj [
      ("group", .str (statusGroup (some status))),
      ("type", .str "Object"),
      ("field", .str status),
      ("description", .str ((text? "description" response).getD "")),
      ("optional", .bool false)]]

/-- The fields of all responses that `keep` selects by their status. -/
def responsesWhere (components : Option Json) (keep : String → Bool) (responses : Fields) :
    List Json :=
  (responses.filter fun (status, _) => keep status).flatMap fun (status, response) =>
    oneResponse components status response

/-- The fields of the responses: of success, and of errors. -/
def responseFields (components : Option Json) (responses : Fields) : List Json × List Json :=
  (responsesWhere components (fun status => !isErrorStatus status) responses,
    responsesWhere components isErrorStatus responses)

/-! ### Documents -/

/-- The endpoint of the first operation of the first path. -/
def convertPaths (components : Option Json) (paths : Json) : Option Json := do
  let (path, item) ← paths.obj?.bind List.head?
  let (method, operation) ← firstOperation? item
  let fields := endpointFields operation method path ++
    [("openapi", Json.obj [("paths", .obj [(path, item)])])]
  let parameters := ((operation.get? "parameters").bind Json.arr?).filter fun ps => !ps.isEmpty
  let fields := fields.set? "parameter" (parameters.map fun ps => .arr (ps.map parameterField))
  let fields := fields.set? "body"
    ((operation.getTruthy? "requestBody").map fun body => .arr (contentFields components none body))
  let fields := match (operation.get? "responses").bind Json.obj? with
    | none => fields
    | some responses =>
      let (success, error) := responseFields components responses
      let part (title : String) (xs : List Json) : Option Json :=
        if xs.isEmpty then none else some (.obj [("fields", .obj [(title, .arr xs)])])
      (fields.set? "success" (part "Success 200" success)).set? "error"
        (part "Error 4xx" error)
  return .obj (fields.set? "group" ((operationGroup? operation).map .str))

/-- An operation that stands alone. -/
def loneOperation (operation : Json) : Json := .obj [
  ("type", .str "openapi-operation"),
  ("title", .str (((text? "summary" operation).or (text? "operationId" operation)).getD
    "OpenAPI Operation")),
  ("name", .str ((text? "operationId" operation).getD "OpenAPIOperation")),
  ("description", .str ((text? "description" operation).getD "")),
  ("version", .str (operationVersion operation)),
  ("openapi", operation),
  ("group", .str ((operationGroup? operation).getD "OpenAPI"))]

/-- Title, name, description and group of a document without operations. -/
def documentationTexts (document : Json) : String × String × String × String :=
  match document.getTruthy? "info" with
  | some info => ((text? "title" info).getD "API Documentation", "APIInfo",
      (text? "description" info).getD "", "API_Information")
  | none =>
    if (document.getTruthy? "components").isSome then
      ("OpenAPI Components", "Components", "Reusable OpenAPI components", "Components")
    else ("OpenAPI Schemas", "Schemas", "OpenAPI schema definitions", "Schemas")

/-- A document without operations. -/
def documentationEntry (document : Json) : Json :=
  let version := ((text? "x-version" document).or
    ((document.get? "info").bind (text? "version"))).getD defaultVersion
  let (title, name, description, group) := documentationTexts document
  .obj [("type", .str "openapi-doc"), ("group", .str group), ("version", .str version),
    ("openapi", document), ("title", .str title), ("name", .str name),
    ("description", .str description)]

/-- The value of a document: of its paths, of the document as paths, of the
document as an operation, or as documentation. -/
def convertDocument (document : Json) : Option Json :=
  match document.getTruthy? "paths" with
  | some paths => convertPaths (document.get? "components") paths
  | none =>
    if (document.obj?.getD []).any fun entry => Text.startsWith entry.1 "/" then
      convertPaths (document.get? "components") document
    else if ["responses", "parameters", "requestBody", "operationId"].any fun key =>
        (document.get? key).isSome then some (loneOperation document)
    else if ["components", "schemas", "info"].any fun key => (document.getTruthy? key).isSome then
      some (documentationEntry document)
    else none

end OpenApi
end Docblock
