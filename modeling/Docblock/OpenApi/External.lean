/-
# OpenAPI documents in files

`{openapi=spec.yaml}` stands for the operations of a document in a file, and
`/users {openapi=spec.yaml}` for those of one of its paths. The file is
looked for beside the file with the reference.

Key definitions: `OpenApi.ExternalReference`, `OpenApi.loadExternal`,
`OpenApi.operationElements`.
-/
import Docblock.OpenApi.Document
import Docblock.FileTree
import Docblock.Element.Basic
import Docblock.Yaml.Printer

namespace Docblock
namespace OpenApi

open Pattern

/-- A reference to a document in a file. -/
structure ExternalReference where
  /-- The path of the document that is meant; empty for all of them. -/
  pathSpec : String
  file : String

/-- A file in braces, as group `n`. -/
def fileInBraces (n : Nat) : Pattern :=
  all [lit "\x7bopenapi=", .group n (charsLazy1 notNewline), lit "\x7d", .textEnd]

/-- Reads a reference: a file alone, or behind a path. -/
def ExternalReference.read? (content : String) : Option ExternalReference :=
  match (all [.textStart, fileInBraces 1]).find? content with
  | some m => some ⟨"", Text.trim (m.group 1)⟩
  | none =>
    ((all [.textStart, .group 1 (charsLazy1 notNewline), blanks, fileInBraces 2]).find? content).map
      fun m => ⟨Text.trim (m.group 1), Text.trim (m.group 2)⟩

/-- The document with the given paths in place of its own; what it lacks
besides is filled in. -/
def withPaths (document : Json) (paths : Fields) : Json := .obj [
  ("openapi", (document.get? "openapi").getD (.str "3.0.0")),
  ("info", (document.get? "info").getD
    (.obj [("title", .str "API"), ("version", .str "1.0.0")])),
  ("paths", .obj paths),
  ("components", (document.get? "components").getD (.obj []))]

/-- The document with only the path that is meant, if it has this path. -/
def narrow (pathSpec : String) (document : Json) : Json :=
  if Text.startsWith pathSpec "/" then
    match (document.get? "paths").bind (Json.get? pathSpec) with
    | some item => withPaths document [(pathSpec, item)]
    | none => document
  else document

/-- The value in a file, by the ending of its name. -/
def loadFile? (path text : String) : Option Json :=
  match Text.lower ((Path.extension? path).getD "") with
  | "json" => Json.parse? text
  | "yaml" => (Yaml.parse? text).map Yaml.toJson
  | "yml" => (Yaml.parse? text).map Yaml.toJson
  | _ => load? (Text.trimStart text)

/-- A document from a file. -/
structure External where
  document : Json
  path : String
  /-- The path of the document that is meant. -/
  pathSpec : String

/-- Loads the document of a reference, or says why that failed. -/
def loadExternal (tree : FileTree) (r : ExternalReference) (filename : String) :
    Except String External :=
  let path := Path.beside filename r.file
  match tree.readText? path with
  | none => .error ("OpenAPI file not readable: " ++ path ++ ": not a text file")
  | some text =>
    match loadFile? path text with
    | none => .error ("failed to load OpenAPI file " ++ r.file ++ ": not a document")
    | some (.obj fields) => .ok {
        document := narrow r.pathSpec (.obj fields)
        path
        pathSpec := if r.pathSpec.isEmpty then "full-spec" else r.pathSpec }
    | some _ => .error ("invalid OpenAPI content in file: " ++ path)

/-- The element of one operation: the document with this operation alone. -/
def operationElement (document : Json) (path method : String) (operation : Json) : Element :=
  let content := Yaml.render
    (Yaml.ofJson (withPaths document [(path, .obj [(method, operation)])]))
  .new "openapi" content ("@openapi\n" ++ content)

/-- The methods of operations that become elements. -/
def elementMethods : List String := httpMethods.take 7

/-- The elements of all operations of a document. -/
def operationElements (document : Json) : List Element :=
  (((document.get? "paths").bind Json.obj?).getD []).flatMap fun (path, item) =>
    elementMethods.filterMap fun method =>
      (item.getTruthy? method).map (operationElement document path method)

end OpenApi
end Docblock
