/-
# OpenAPI documents

A document is YAML or JSON. Operations give it names, versions and groups:
`get /users/{id}` is called `getUsersId` and its route is `/users/:id`.

Key definitions: `OpenApi.load?`, `OpenApi.route`, `OpenApi.operationName`,
`OpenApi.operationVersion?`, `OpenApi.firstOperation?`.
-/
import Docblock.Json.Parser
import Docblock.Yaml.Node
import Docblock.Tag.Basic
import Docblock.Text.Case

namespace Docblock
namespace OpenApi

open Pattern

/-- The value that a text holds: read as JSON first if it starts with a
bracket, else as YAML first. -/
def load? (text : String) : Option Json :=
  let json := Json.parse? text
  let yaml := (Yaml.parse? text).map Yaml.toJson
  if Text.startsWith text "\x7b" || Text.startsWith text "[" then json.or yaml else yaml.or json

/-- The version of a document that gives none. -/
def defaultVersion : String := "4.0.0"

/-- The methods of operations, in the order in which they are looked for. -/
def httpMethods : List String :=
  ["get", "post", "put", "delete", "patch", "head", "options", "trace"]

/-- The text under a key, unless it is empty. -/
def text? (key : String) (v : Json) : Option String :=
  (v.getStr? key).filter fun s => !s.isEmpty

/-- The first method that has an operation, with the operation. -/
def firstOperation? (item : Json) : Option (String × Json) :=
  httpMethods.findSome? fun method => (item.getTruthy? method).map fun op => (method, op)

/-- The path with `:name` for `{name}`. -/
def route (path : String) : String :=
  (all [lit "\x7b", .group 1 (chars1 (· != '}')), lit "\x7d"]).replaceAll
    (fun m => ":" ++ m.group 1) path

/-- A word with a capital in front and small letters behind. -/
def titleWord (word : String) : String :=
  match word.toList with
  | [] => ""
  | c :: cs => String.ofList (Text.upperChar c) ++ Text.lower (String.ofList cs)

/-- The name of an operation: the method and the words of the path. -/
def operationName (method path : String) : String :=
  let spaced := String.ofList (path.toList.map fun c => if among "\x7b\x7d/:" c then ' ' else c)
  Text.lower method ++ String.join ((Text.words spaced).map titleWord)

/-- A class without regard to case. -/
def anyCase (word : String) : Pattern :=
  all (word.toList.map fun c => .one fun d => (Text.caseVariants d).contains c)

/-- Two or three numbers with points between them, as group 1. -/
def versionNumbers : Pattern :=
  let number := chars1 Text.isDecimal
  .group 1 (all [number, lit ".", number, opt (all [lit ".", number])])

/-- A tag such as `v1.2`. -/
def versionTag : Pattern := all [.textStart, opt (anyCase "v"), versionNumbers, .textEnd]

/-- A tag such as `version: 1.2.0`. -/
def versionWordTag : Pattern :=
  all [.textStart, anyCase "version", opt (lit ":"), .chars fun c => Text.isBlank c || c == '-',
    versionNumbers, .textEnd]

/-- The version of an operation: given as such, or by one of its tags. -/
def operationVersion? (operation : Json) : Option String :=
  match text? "x-version" operation with
  | some version => some version
  | none =>
    ((((operation.get? "tags").bind Json.arr?).getD []).filterMap Json.str?).findSome? fun tag =>
      ((versionTag.find? tag).or (versionWordTag.find? tag)).map fun m => m.group 1

/-- The version of an operation, or the default. -/
def operationVersion (operation : Json) : String :=
  (operationVersion? operation).getD defaultVersion

/-- The group of an operation: given as such, or its first tag. -/
def operationGroup? (operation : Json) : Option String :=
  ((text? "x-group" operation).or
    (((((operation.get? "tags").bind Json.arr?).getD []).head?).bind Json.str?)).map Tag.underscored

/-- The title of an operation: its summary, its identifier, or method and
path. -/
def operationTitle (operation : Json) (method path : String) : String :=
  ((text? "summary" operation).or (text? "operationId" operation)).getD
    (Text.upper method ++ " " ++ path)

/-- The endpoint that an operation describes, without its fields. -/
def endpointFields (operation : Json) (method path : String) : Fields := [
  ("type", .str method),
  ("url", .str (route path)),
  ("title", .str (operationTitle operation method path)),
  ("name", .str ((text? "operationId" operation).getD (operationName method path))),
  ("description", .str ((text? "description" operation).getD "")),
  ("version", .str (operationVersion operation))]

end OpenApi
end Docblock
